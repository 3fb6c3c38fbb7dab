import SecurityProfiles.Merging.MergeTyped

namespace SecurityProfiles

open VersionedStore

def recordingHasUnmergedProfiles : String := "spo.x-k8s.io/has-unmerged-profiles"

/-- The finalizers left after all of the given ones are removed. Empty ones are ignored. -/
def withoutFinalizers (removed finalizers : List String) : List String :=
  finalizers.filter fun finalizer => finalizer = "" || finalizer ∉ removed

/-- `removeFinalizers` removes the finalizers that the object has with a single update. -/
def removeFinalizers (key : Key) (removed : List String) : Prog Key Object (Except ApiError Unit) :=
  .call (.get key) fun
    | .error error => .ret (.error error)
    | .ok stored =>
      if withoutFinalizers removed stored.body.finalizers = stored.body.finalizers then .ret (.ok ())
      else
        .call (.update key stored.version
          { stored.body with finalizers := withoutFinalizers removed stored.body.finalizers }) .ret

def isConflict : ApiError → Bool
  | .conflict => true
  | _ => false

/-- All kinds of partial profiles which a recording can have. -/
def mergeKinds : List ProfileRecordingKind := [.seccompProfile, .selinuxProfile, .appArmorProfile]

/-- `hasPartialProfiles` tells whether the recording has partial profiles of the kind that are not being deleted. -/
def hasPartialProfiles (recording : Recording) (kind : ProfileRecordingKind) :
    Prog Key Object (Except ApiError Bool) :=
  .call (.list (selectsPartial recording kind)) fun
    | .error error => .ret (.error error)
    | .ok listed => .ret (.ok (listed.any fun profile => !profile.2.deleting))

def hasPartialProfilesOf (recording : Recording) :
    List ProfileRecordingKind → Prog Key Object (Except ApiError Bool)
  | [] => .ret (.ok false)
  | kind :: rest => hasPartialProfiles recording kind >>= fun
      | .error error => .ret (.error error)
      | .ok true => .ret (.ok true)
      | .ok false => hasPartialProfilesOf recording rest

def releaseFinalizer (namespaceName name : String) : Prog Key Object (Except ApiError Unit) :=
  removeFinalizers (.recording namespaceName name) [recordingHasUnmergedProfiles]

/-- `releaseRecording` removes the finalizer once no partial profile of any kind is left. -/
def releaseRecording (recording : Recording) (finalizers : List String) : Prog Key Object (Except ApiError Unit) :=
  if recordingHasUnmergedProfiles ∉ finalizers then .ret (.ok ())
  else
    hasPartialProfilesOf recording mergeKinds >>= fun
      | .error error => .ret (.error error)
      | .ok true => .ret (.ok ())
      | .ok false =>
        retryOnError isConflict (releaseFinalizer recording.namespaceName recording.name) 4 >>= fun result =>
          .ret (ignoreNotFound result)

inductive ReconcileError where
  | get (error : ApiError)
  | merge (kind : ProfileRecordingKind) (error : MergeRunError)
  | release (error : ApiError)

def mergeProfilesOf (merger : Merger) (recording : Recording) (range : ProfileRecordingKind → RangeOrder) :
    List ProfileRecordingKind → Prog Key Object (Except ReconcileError Unit)
  | [] => .ret (.ok ())
  | kind :: rest => mergeTypedProfiles merger recording kind (range kind) >>= fun
      | .error error => .ret (.error (.merge kind error))
      | .ok _ => mergeProfilesOf merger recording range rest

def mergeProfiles (merger : Merger) (recording : Recording) (finalizers : List String)
    (range : ProfileRecordingKind → RangeOrder) : Prog Key Object (Except ReconcileError Unit) :=
  mergeProfilesOf merger recording range mergeKinds >>= fun
    | .error error => .ret (.error error)
    | .ok () => releaseRecording recording finalizers >>= fun result => .ret (result.mapError .release)

/-- `reconcile` merges the partial profiles of a recording that is being deleted. -/
def reconcile (merger : Merger) (namespaceName name : String) (range : ProfileRecordingKind → RangeOrder) :
    Prog Key Object (Except ReconcileError Unit) :=
  .call (.get (.recording namespaceName name)) fun
    | .error .notFound => .ret (.ok ())
    | .error error => .ret (.error (.get error))
    | .ok stored =>
      if stored.deleting then
        mergeProfiles merger { name := name, namespaceName := namespaceName, created := stored.created }
          stored.body.finalizers range
      else .ret (.ok ())

structure NodeProfile where
  kind : ProfileRecordingKind
  name : String
  labels : Labels
deriving DecidableEq

namespace NodeProfile

def key (pol : NodeProfile) : Key := .profile pol.kind pol.name

def isPartial (pol : NodeProfile) : Bool := pol.labels.partialProfile.isSome

end NodeProfile

/-- `listProfilesByRecording` selects the profiles of one kind that the recording made. -/
def selectsRecorded (kind : ProfileRecordingKind) (recordingName recordingNamespace : String) : Key → Object → Bool
  | .profile kind' _, object => kind' = kind && object.labels.recording = some recordingName &&
      object.labels.recordingNamespace = some recordingNamespace
  | .recording _ _, _ => false

/-- Another partial profile that is not being deleted. -/
def isOtherPartial (pol : NodeProfile) (other : Listed) : Bool :=
  !other.2.deleting && other.2.body.labels.partialProfile.isSome && other.1.name ≠ "" && other.1.name ≠ pol.name

/-- `handleRecordingFinalizer` removes the finalizer from the recording if the profile was its last partial one. -/
def handleRecordingFinalizer (pol : NodeProfile) : Prog Key Object (Except ApiError Unit) :=
  let recordingName := pol.labels.recording.getD ""
  let recordingNamespace := pol.labels.recordingNamespace.getD ""
  if recordingName = "" || recordingNamespace = "" then .ret (.ok ())
  else
    .call (.list (selectsRecorded pol.kind recordingName recordingNamespace)) fun
      | .error error => .ret (.error error)
      | .ok listed =>
        if listed.any (isOtherPartial pol) then .ret (.ok ())
        else
          retryOnError isNotFoundOrConflict
            (releaseFinalizer recordingNamespace recordingName >>= fun result => .ret (ignoreNotFound result)) 4

/-- `remove` takes the finalizers of a node off a profile that is being deleted, and releases the recording. -/
def remove (pol : NodeProfile) (finalizers : List String) : Prog Key Object (Except ApiError Unit) :=
  (if pol.isPartial then handleRecordingFinalizer pol else .ret (.ok ())) >>= fun
    | .error error => .ret (.error error)
    | .ok () => retryOnError isNotFoundOrConflict (removeFinalizers pol.key finalizers) 4

end SecurityProfiles
