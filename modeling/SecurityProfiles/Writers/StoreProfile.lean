import SecurityProfiles.Writers.CreateUpdate

namespace SecurityProfiles

open VersionedStore

/-- `ProfileTarget` describes where and how a collected profile is stored. -/
structure ProfileTarget where
  name : String
  namespaceName : String
  labels : Labels
  recordingName : String
  disable : Bool
  merge : Bool
  partialName : String
deriving DecidableEq

/-- `createProfileName` names a profile after the recording, the container and the replica. -/
def createProfileName (cntName replicaSuffix profileName : String) : String :=
  let name := profileName ++ "-" ++ cntName
  if replicaSuffix ≠ "" then name ++ "-" ++ replicaSuffix else name

/-- What a recording says about the storage of its profiles. -/
structure RecordingState where
  isPartial : Bool
  disable : Bool

/-- The recording, looked up again: it is there, maybe being deleted, or gone, with the state it had if known. -/
inductive RecordingLookup where
  | found (state : RecordingState) (deleting : Bool)
  | gone (state : Option RecordingState)

inductive TargetError where
  | nameNotValid
  | recordingGone
deriving DecidableEq

def isDNS1123Label (name : String) : Bool :=
  let inner := fun char : Char => char.isLower || char.isDigit
  let chars := name.toList
  chars.length ≤ 63 && chars.head?.any inner && chars.getLast?.any inner && chars.all fun char =>
  inner char || char = '-'

/-- The state of the recording, and whether to merge into its final profile: nothing would merge a partial profile
any more once the recording is gone, or about to be gone. -/
def storageOf : RecordingLookup → Except TargetError (RecordingState × Bool)
  | .gone none => .error .recordingGone
  | .gone (some state) => .ok (state, state.isPartial)
  | .found state deleting => .ok (state, state.isPartial && deleting)

/-- `resolveProfileTarget` determines how the profile of a container is stored. -/
def resolveProfileTarget (profileName cntName replicaSuffix podName podNamespace : String)
    (recording : RecordingLookup) : Except TargetError ProfileTarget :=
  if !isDNS1123Label profileName then .error .nameNotValid
  else do
    let (state, merge) ← storageOf recording
    let isPartial := state.isPartial && !merge
    let partialSuffix := if replicaSuffix = "" then podName else replicaSuffix
    let suffix := if merge then "" else if isPartial then partialSuffix else replicaSuffix
    return {
      name := createProfileName cntName suffix profileName
      namespaceName := podNamespace
      labels :=
        { recording := some profileName
          recordingNamespace := some podNamespace
          container := some cntName
          partialProfile := if isPartial then some "true" else none }
      recordingName := profileName
      disable := state.disable
      merge := merge
      partialName := if merge then createProfileName cntName partialSuffix profileName else "" }

/-- `mergeStoredProfile` merges a collected profile with the stored one, unless that was not recorded. -/
def mergeStoredProfile (merger : Merger) (stored : Option (Stored Object)) (desired : Spec) :
    Except MergeError Spec :=
  match stored with
  | none => .ok desired
  | some stored =>
    match stored.body.labels.recording with
    | none => .ok desired
    | some _ => do
        let merged ← stored.body.spec.merge merger desired
        return merged.withState desired.state

def specToStore (merger : Merger) (target : ProfileTarget) (desired : Spec) (stored : Option (Stored Object)) :
    Except WriteError Spec :=
  if target.merge then (mergeStoredProfile merger stored desired).mapError .ofMerge else .ok desired

/-- The change of `storeProfile` to the fetched profile, or to a new one. -/
def updateStoredProfile (merger : Merger) (target : ProfileTarget) (desired : Spec)
    (stored : Option (Stored Object)) : Except WriteError Object := do
  (checkRecordingOwner stored target.recordingName target.namespaceName).mapError .owner
  let spec ← specToStore merger target desired stored
  let object := (stored.map (·.body)).getD
    { labels := target.labels, finalizers := [], syscallCoverage := none, spec := desired }
  return { object with spec := spec }

/-- The write of `storeProfile`, done again while it loses against others. -/
def writeProfile (merger : Merger) (target : ProfileTarget) (desired : Spec) (kind : ProfileRecordingKind) :
    Prog Key Object (Except (Fault WriteError) Unit) :=
  retryOnError Fault.isWriteConflict
    (createOrUpdate (.profile kind target.name) (updateStoredProfile merger target desired)) 4

/-- How storing a profile ended. A profile of another recording makes the recorder drop its data. -/
inductive StoreOutcome where
  | stored
  | storedPartial
  | dropped
  | failed (fault : Fault WriteError)

/-- Whether the caller gets to see an error. -/
def StoreOutcome.reportsSuccess : StoreOutcome → Bool
  | .failed _ => false
  | _ => true

def ProfileTarget.toPartial (target : ProfileTarget) : ProfileTarget :=
  { target with merge := false, name := target.partialName,
                labels := { target.labels with partialProfile := some "true" } }

/-- `storePartialProfile` keeps the data in a partial profile after merging it failed. -/
def storePartialProfile (merger : Merger) (target : ProfileTarget) (desired : Spec) (kind : ProfileRecordingKind) :
    Prog Key Object StoreOutcome := do
  match ← writeProfile merger target.toPartial desired kind with
  | .ok () => return .storedPartial
  | .error (.refused (.owner _)) => return .dropped
  | .error fault => return .failed fault

/-- `storeProfile` creates or updates the collected profile as the target describes. -/
def storeProfile (merger : Merger) (target : ProfileTarget) (profile : Spec) (kind : ProfileRecordingKind) :
    Prog Key Object StoreOutcome := do
  let desired := if target.disable then profile.withState .disabled else profile
  match ← writeProfile merger target desired kind with
  | .ok () => return .stored
  | .error (.refused (.merge _)) => storePartialProfile merger target desired kind
  | .error (.refused (.owner _)) => return .dropped
  | .error fault => return .failed fault

variable {cntName profileName : String} {target : ProfileTarget} {merger : Merger} {desired merged : Spec}
  {stored : Option (Stored Object)}

theorem createProfileName_ne {suffix : String} (some' : suffix ≠ "") :
    createProfileName cntName suffix profileName ≠ createProfileName cntName "" profileName := by
  intro same
  rw [createProfileName, createProfileName, if_pos some', if_neg (by simp)] at same
  have lengths := congrArg String.length same
  simp only [String.length_append] at lengths
  have dash : "-".length = 1 := rfl
  omega

theorem partialName_ne_name {replicaSuffix podName podNamespace : String}
    {recording : RecordingLookup} (named : podName ≠ "")
    (resolved : resolveProfileTarget profileName cntName replicaSuffix podName podNamespace recording = .ok target)
    (merges : target.merge = true) : target.partialName ≠ target.name := by
  unfold resolveProfileTarget at resolved
  split at resolved
  · cases resolved
  · obtain ⟨⟨state, merge⟩, _, resolved⟩ := Fallible.bind_ok.mp resolved
    obtain rfl := Fallible.pure_ok.mp resolved
    have merging : merge = true := merges
    subst merging
    exact createProfileName_ne (by split <;> assumption)

theorem updateStoredProfile_ok {object : Object}
    (ok : updateStoredProfile merger target desired stored = .ok object) :
    checkRecordingOwner stored target.recordingName target.namespaceName = .ok () ∧
      (target.merge = true → mergeStoredProfile merger stored desired = .ok object.spec) := by
  obtain ⟨_, checked, ok⟩ := Fallible.bind_ok.mp ok
  obtain ⟨spec, specOk, ok⟩ := Fallible.bind_ok.mp ok
  obtain rfl := Fallible.pure_ok.mp ok
  refine ⟨mapError_ok.mp checked, fun merges => ?_⟩
  rw [specToStore, if_pos merges] at specOk
  exact mapError_ok.mp specOk

theorem specToStore_ne_owner (merger : Merger) (target : ProfileTarget) (desired : Spec)
    (stored : Option (Stored Object)) (error : OwnerError) :
    specToStore merger target desired stored ≠ .error (.owner error) := by
  unfold specToStore
  split
  · cases mergeStoredProfile merger stored desired with
    | error mergeError => cases mergeError <;> simp [Except.mapError, WriteError.ofMerge]
    | ok merged => simp [Except.mapError]
  · simp

/-- The owner is only objected to if a profile is stored that does not belong to the recording. -/
theorem updateStoredProfile_owner {base : Option (Stored Object)} {error : OwnerError}
    (refused : updateStoredProfile merger target desired base = .error (.owner error)) :
    ∃ stored, base = some stored ∧ stored.body.labels.Foreign target.recordingName target.namespaceName := by
  have unchecked : checkRecordingOwner base target.recordingName target.namespaceName ≠ .ok () := by
    intro checked
    have failed := specToStore_ne_owner merger target desired base error
    cases spec : specToStore merger target desired base with
    | ok stored =>
      simp [updateStoredProfile, checked, spec, Except.mapError, bind, Except.bind, pure, Except.pure] at refused
    | error other =>
      simp only [updateStoredProfile, checked, spec, Except.mapError, bind, Except.bind,
        Except.error.injEq] at refused
      exact failed (by rw [spec, refused])
  cases base with
  | none => exact absurd rfl unchecked
  | some stored => exact ⟨stored, rfl, by_contra fun owned => unchecked (checkRecordingOwner_ok.mpr owned)⟩

theorem mergeStoredProfile_within (above : merger.Above)
    (ok : mergeStoredProfile merger stored desired = .ok merged) : desired.Within merged := by
  unfold mergeStoredProfile at ok
  split at ok
  · cases ok
    exact Spec.Within.refl _
  split at ok
  · cases ok
    exact Spec.Within.refl _
  · obtain ⟨united, unitedOk, ok⟩ := Fallible.bind_ok.mp ok
    obtain rfl := Fallible.pure_ok.mp ok
    intro rule contained
    exact (Spec.contains_withState _ _ rule).mpr ((above.increases unitedOk).2 rule contained)

theorem mergeStoredProfile_keeps (above : merger.Above) {stored : Stored Object}
    {name : String} (recorded : stored.body.labels.recording = some name)
    (ok : mergeStoredProfile merger (some stored) desired = .ok merged) : stored.body.spec.Within merged := by
  simp only [mergeStoredProfile, recorded] at ok
  obtain ⟨united, unitedOk, ok⟩ := Fallible.bind_ok.mp ok
  obtain rfl := Fallible.pure_ok.mp ok
  intro rule contained
  exact (Spec.contains_withState _ _ rule).mpr ((above.increases unitedOk).1 rule contained)

/-- For a target that merges, the stored profile gets the desired rules and loses none of its own. -/
theorem updateStoredProfile_merges (above : merger.Above) (target : ProfileTarget) (desired : Spec)
    (since : Nat) (merges : target.merge = true) :
    Merges (updateStoredProfile merger target desired) target.recordingName target.namespaceName desired since where
  owned ok := checkRecordingOwner_ok.mp (updateStoredProfile_ok ok).1
  adds ok := mergeStoredProfile_within above ((updateStoredProfile_ok ok).2 merges)
  keeps {stored object} ok _ := by
    have owned := checkRecordingOwner_ok.mp (updateStoredProfile_ok ok).1
    cases recorded : stored.body.labels.recording with
    | none => exact absurd (Or.inl recorded) owned
    | some name => exact mergeStoredProfile_keeps above recorded ((updateStoredProfile_ok ok).2 merges)

end SecurityProfiles
