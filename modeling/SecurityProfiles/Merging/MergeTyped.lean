import SecurityProfiles.Writers.CreateUpdate

namespace SecurityProfiles

open VersionedStore List

/-- `partialProfileLabels` selects the partial profiles of the recording. -/
def Labels.partialOf (recording : Recording) (labels : Labels) : Bool :=
  labels.recording = some recording.name && labels.recordingNamespace = some recording.namespaceName &&
    labels.partialProfile = some "true"

def selectsPartial (recording : Recording) (kind : ProfileRecordingKind) : Key → Object → Bool
  | .profile kind' _, object => kind' = kind && object.labels.partialOf recording
  | .recording _ _, _ => false

abbrev Listed := Key × Stored Object

def getContainerID (profile : Listed) : String := profile.2.body.labels.container.getD ""

def Key.name : Key → String
  | .profile _ name => name
  | .recording _ name => name

inductive MergeRunError where
  | list (error : ApiError)
  | notMergeable
  | merge (error : MergeError)
  | write (fault : Fault WriteError)
  | delete (errors : List ApiError)

/-- `mergeMergeableProfiles` merges all profiles of a list into the first. -/
def mergeMergeableProfiles (merger : Merger) : List Spec → Except MergeError Spec
  | [] => .error .emptyList
  | base :: rest => rest.foldlM (Spec.merge merger) base

def syscallNames : Spec → Option (List String)
  | .seccomp spec => some (spec.syscalls.flatMap (·.names)).dedup
  | _ => none

def countName (counts : SortedMap String Nat) (name : String) : SortedMap String Nat :=
  counts.insert name ((counts.lookup name).getD 0 + 1)

/-- `seccompCoverageAnnotation` counts for each syscall the partial profiles with it. -/
def seccompCoverageAnnotation (partials : List Spec) : Option SyscallCoverage :=
  if partials = [] then none
  else do
    let names ← partials.mapM syscallNames
    return { version := "v1", total := partials.length
             syscalls := names.foldl (fun counts names => names.foldl countName counts) .empty }

/-- The container labels of the listed profiles, each once. -/
def containersOf (listed : List Listed) : List String := ((listed.map getContainerID).filter (· ≠ "")).dedup

def profilesOf (listed : List Listed) (container : String) : List Listed :=
  listed.filter fun profile => getContainerID profile = container

/-- Merge the profiles of each container into its merged profile. A container whose merged profile belongs to
somebody else is skipped. -/
def mergeContainers (merger : Merger) (recording : Recording) (kind : ProfileRecordingKind) (listed : List Listed) :
    List String → List String → Prog Key Object (Except MergeRunError (List String))
  | [], skipped => .ret (.ok skipped)
  | container :: rest, skipped =>
    match profilesOf listed container with
    | [] => .ret (.error (.merge .emptyList))
    | first :: others =>
      let specs := (first :: others).map (·.2.body.spec)
      let coverage := seccompCoverageAnnotation specs
      match mergeMergeableProfiles merger specs with
      | .error error => .ret (.error (.merge error))
      | .ok merged =>
        createUpdateProfile merger recording (mergedProfileName recording.name first.1.name first.2.body.labels)
            merged kind coverage >>= fun
          | .ok () => mergeContainers merger recording kind listed rest skipped
          | .error (.refused (.owner _)) => mergeContainers merger recording kind listed rest (container :: skipped)
          | .error fault => .ret (.error (.write fault))

/-- `deletePartialProfiles` deletes the listed objects, and not others that took their names meanwhile. -/
def deletePartialProfiles : List Listed → List ApiError → Prog Key Object (List ApiError)
  | [], errors => .ret errors
  | profile :: rest, errors =>
    Prog.perform (.delete profile.1 profile.2.uid) >>= fun
      | .ok () => deletePartialProfiles rest errors
      | .error .notFound => deletePartialProfiles rest errors
      | .error .conflict => deletePartialProfiles rest errors
      | .error error => deletePartialProfiles rest (errors ++ [error])

/-- An order in which a map is ranged over. -/
structure RangeOrder where
  order : List String → List String
  perm : ∀ keys, (order keys).Perm keys

/-- The rest of a run, once the partial profiles are listed. -/
def mergeListed (merger : Merger) (recording : Recording) (kind : ProfileRecordingKind) (range : RangeOrder)
    (listed : List Listed) : Prog Key Object (Except MergeRunError Bool) :=
  if listed = [] then .ret (.ok false)
  else if listed.any fun profile => profile.2.body.spec.kind = none then .ret (.error .notMergeable)
  else
    mergeContainers merger recording kind listed (range.order (containersOf listed)) [] >>= fun
      | .error error => .ret (.error error)
      | .ok skipped =>
        deletePartialProfiles (listed.filter fun profile => getContainerID profile ∉ skipped) [] >>= fun
          | [] => .ret (.ok true)
          | errors => .ret (.error (.delete errors))

/-- `mergeTypedProfiles` merges the partial profiles of a kind and deletes them. -/
def mergeTypedProfiles (merger : Merger) (recording : Recording) (kind : ProfileRecordingKind)
    (range : RangeOrder) :
    Prog Key Object (Except MergeRunError Bool) :=
  Prog.perform (.list (selectsPartial recording kind)) >>= fun
    | .error error => .ret (.error (.list error))
    | .ok listed => mergeListed merger recording kind range listed

section content

variable {P : Type} [Preorder P] {content : Spec → P} {merger : Merger} {merged : Spec}

/-- The first profile and all that are merged into it are below the result. -/
theorem foldlM_merge_within (increases : merger.Increases content) {base : Spec} {rest : List Spec}
    (ok : rest.foldlM (Spec.merge merger) base = .ok merged) :
    content base ≤ content merged ∧ ∀ spec ∈ rest, content spec ≤ content merged := by
  induction rest generalizing base with
  | nil =>
    cases ok
    exact ⟨le_refl _, by simp⟩
  | cons other rest ih =>
    rw [foldlM_cons] at ok
    obtain ⟨middle, mergedOther, ok⟩ := Fallible.bind_ok.mp ok
    obtain ⟨baseWithin, otherWithin⟩ := increases mergedOther
    obtain ⟨middleWithin, restWithin⟩ := ih ok
    refine ⟨baseWithin.trans middleWithin, ?_⟩
    intro spec member
    rcases mem_cons.mp member with rfl | member
    · exact otherWithin.trans middleWithin
    · exact restWithin spec member

theorem mergeMergeableProfiles_within (increases : merger.Increases content) {specs : List Spec}
    (ok : mergeMergeableProfiles merger specs = .ok merged) : ∀ spec ∈ specs, content spec ≤ content merged := by
  cases specs with
  | nil => cases ok
  | cons base rest =>
    have within := foldlM_merge_within increases ok
    intro spec member
    rcases mem_cons.mp member with rfl | member
    · exact within.1
    · exact within.2 spec member

end content

theorem mem_containersOf {listed : List Listed} {container : String} :
    container ∈ containersOf listed ↔ container ≠ "" ∧ ∃ profile ∈ listed, getContainerID profile = container := by
  simp only [containersOf, mem_dedup, mem_filter, mem_map, decide_eq_true_eq]
  exact and_comm

theorem mem_profilesOf {listed : List Listed} {container : String} {profile : Listed} :
    profile ∈ profilesOf listed container ↔ profile ∈ listed ∧ getContainerID profile = container := by
  simp only [profilesOf, mem_filter, decide_eq_true_eq]

section deletes

variable {named : Key → Nat → Prop}

/-- The call deletes no other objects. -/
def DeletesNamed (named : Key → Nat → Prop) (request : Call Key Object) : Prop :=
  ∀ key uid, request = .delete key uid → named key uid

theorem mergeContainers_confined (merger : Merger) (recording : Recording) (kind : ProfileRecordingKind)
    (listed : List Listed) (containers skipped : List String) :
    (mergeContainers merger recording kind listed containers skipped).Confined (DeletesNamed named)
      fun _ => True := by
  induction containers generalizing skipped with
  | nil => trivial
  | cons container rest ih =>
    unfold mergeContainers
    split
    · trivial
    · dsimp only
      split
      · trivial
      · refine (retryOnError_confined (createOrUpdate_confined _ (by simp [DeletesNamed]) (by simp [DeletesNamed])
          (by simp [DeletesNamed])) 9).bind ?_
        rintro (((_ | _ | _ | _) | _) | _) -
        all_goals first | exact ih _ | trivial

theorem deletePartialProfiles_confined {profiles : List Listed}
    (deletes : ∀ profile ∈ profiles, named profile.1 profile.2.uid) (errors : List ApiError) :
    (deletePartialProfiles profiles errors).Confined (DeletesNamed named) fun _ => True := by
  induction profiles generalizing errors with
  | nil => trivial
  | cons profile rest ih =>
    have later := ih fun other member => deletes other (mem_cons_of_mem _ member)
    refine ⟨?_, ?_⟩
    · rintro key uid same
      cases same
      exact deletes profile mem_cons_self
    · rintro ((_ | _ | _ | _) | _) <;> exact later _

/-- The merger deletes nothing but what it listed, and only under the identity that it saw. -/
theorem mergeListed_deletesOnly (merger : Merger) (recording : Recording) (kind : ProfileRecordingKind)
    (range : RangeOrder) (listed : List Listed) :
    (mergeListed merger recording kind range listed).DeletesOnly
      fun key uid => ∃ stored, (key, stored) ∈ listed ∧ stored.uid = uid := by
  unfold mergeListed
  split
  · trivial
  split
  · trivial
  refine ((mergeContainers_confined _ _ _ _ _ _).bind ?_).deletesOnly
  rintro (error | skipped) -
  · trivial
  refine (deletePartialProfiles_confined ?_ _).bind ?_
  · intro profile member
    exact ⟨profile.2, (mem_filter.mp member).1, rfl⟩
  · intro errors _
    cases errors <;> trivial

end deletes

end SecurityProfiles
