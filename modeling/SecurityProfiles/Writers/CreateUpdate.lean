import SecurityProfiles.Library.CreateOrUpdate
import SecurityProfiles.Profiles.Object

namespace SecurityProfiles

open VersionedStore

/-- What the merger knows of a recording. -/
structure Recording where
  name : String
  namespaceName : String
  created : Nat
deriving DecidableEq

inductive WriteError where
  | owner (error : OwnerError)
  | merge (error : MergeError)
  | conversion
  | panicked

def WriteError.ofMerge : MergeError → WriteError
  | .nilMap => .panicked
  | error => .merge error

/-- `mergedProfileName` names the profile that a partial profile is merged into. -/
def mergedProfileName (recordingName name : String) (labels : Labels) : String :=
  let suffix := labels.container.getD ""
  recordingName ++ "-" ++ (if suffix = "" then name else suffix)

/-- The empty profile with the labels of a merged profile. -/
def newProfileObject (recording : Recording) (spec : Spec) : Object where
  labels :=
    { recording := some recording.name
      recordingNamespace := some recording.namespaceName
      container := none
      partialProfile := none }
  finalizers := []
  syscallCoverage := none
  spec := spec

/-- `mergeInto` merges a partial profile with the existing one. Profiles created before the recording belong to
a previous recording with the same name and get replaced. -/
def mergeInto (merger : Merger) (existing : Option (Stored Object)) (partialSpec : Spec) (recording : Recording) :
    Except MergeError Spec :=
  match existing with
  | none => .ok partialSpec
  | some stored =>
    if stored.created < recording.created then .ok partialSpec else partialSpec.merge merger stored.body.spec

def setMergedSpec (kind : ProfileRecordingKind) (object : Object) (merged : Spec) : Except WriteError Object :=
  if merged.kind = some kind then .ok { object with spec := merged } else .error .conversion

def setSyscallCoverageAnnotation (object : Object) (coverage : Option SyscallCoverage) : Object :=
  { object with syscallCoverage := coverage <|> object.syscallCoverage }

/-- The change of `createUpdateProfile` to the fetched profile, or to a new one. -/
def updateMergedProfile (merger : Merger) (recording : Recording) (kind : ProfileRecordingKind) (partialSpec : Spec)
    (coverage : Option SyscallCoverage) (existing : Option (Stored Object)) : Except WriteError Object := do
  (checkRecordingOwner existing recording.name recording.namespaceName).mapError .owner
  let merged ← (mergeInto merger existing partialSpec recording).mapError .ofMerge
  let object := (existing.map (·.body)).getD (newProfileObject recording merged)
  let object ← setMergedSpec kind object merged
  return if kind = .seccompProfile then setSyscallCoverageAnnotation object coverage else object

/-- `createUpdateProfile` merges a partial profile into the merged profile of the recording. -/
def createUpdateProfile (merger : Merger) (recording : Recording) (mergedRecordingName : String)
    (partialSpec : Spec) (kind : ProfileRecordingKind) (coverage : Option SyscallCoverage) :
    Prog Key Object (Except (Fault WriteError) Unit) :=
  retryOnError Fault.isWriteConflict
    (createOrUpdate (.profile kind mergedRecordingName)
      (updateMergedProfile merger recording kind partialSpec coverage))
    9

/-- A change to a profile that adds a contribution of a recording and drops nothing. -/
structure Merges (change : Option (Stored Object) → Except WriteError Object)
    (recordingName recordingNamespace : String)
    (contribution : Spec) (since : Nat) : Prop where
  owned : ∀ {stored object}, change (some stored) = .ok object →
    ¬ stored.body.labels.Foreign recordingName recordingNamespace
  adds : ∀ {base object}, change base = .ok object → contribution.Within object.spec
  keeps : ∀ {stored object}, change (some stored) = .ok object → since ≤ stored.created →
    stored.body.spec.Within object.spec

theorem mapError_ok {ε ε' α : Type} {f : ε → ε'} {attempt : Except ε α} {result : α} :
    attempt.mapError f = .ok result ↔ attempt = .ok result := by
  cases attempt <;> simp [Except.mapError]

variable {merger : Merger} {recording : Recording} {partialSpec merged : Spec} {existing : Option (Stored Object)}

/-- What a successful change has checked and computed. -/
theorem updateMergedProfile_ok {kind : ProfileRecordingKind} {coverage : Option SyscallCoverage} {object : Object}
    (ok : updateMergedProfile merger recording kind partialSpec coverage existing = .ok object) :
    checkRecordingOwner existing recording.name recording.namespaceName = .ok () ∧
      mergeInto merger existing partialSpec recording = .ok object.spec ∧
      object.labels = ((existing.map (·.body)).getD (newProfileObject recording object.spec)).labels := by
  obtain ⟨_, checked, ok⟩ := Fallible.bind_ok.mp ok
  obtain ⟨merged, mergedOk, ok⟩ := Fallible.bind_ok.mp ok
  obtain ⟨written, writtenOk, ok⟩ := Fallible.bind_ok.mp ok
  have same : object.spec = written.spec ∧ object.labels = written.labels := by
    rw [← Fallible.pure_ok.mp ok]
    split <;> exact ⟨rfl, rfl⟩
  unfold setMergedSpec at writtenOk
  split at writtenOk
  · cases writtenOk
    rw [same.1, same.2]
    exact ⟨mapError_ok.mp checked, mapError_ok.mp mergedOk, by cases existing <;> rfl⟩
  · cases writtenOk

section content

variable {P : Type} [Preorder P] {content : Spec → P}

theorem mergeInto_within (increases : merger.Increases content)
    (ok : mergeInto merger existing partialSpec recording = .ok merged) : content partialSpec ≤ content merged := by
  cases existing with
  | none =>
    cases ok
    exact le_refl _
  | some stored =>
    simp only [mergeInto] at ok
    split at ok
    · cases ok
      exact le_refl _
    · exact (increases ok).1

theorem mergeInto_keeps (increases : merger.Increases content) {stored : Stored Object}
    (ok : mergeInto merger (some stored) partialSpec recording = .ok merged)
    (notEarlier : recording.created ≤ stored.created) : content stored.body.spec ≤ content merged := by
  simp only [mergeInto, if_neg (Nat.not_lt.mpr notEarlier)] at ok
  exact (increases ok).2

end content

theorem updateMergedProfile_merges (above : merger.Above) (recording : Recording) (kind : ProfileRecordingKind)
    (partialSpec : Spec) (coverage : Option SyscallCoverage) {since : Nat}
    (notEarlier : recording.created ≤ since) :
    Merges (updateMergedProfile merger recording kind partialSpec coverage) recording.name recording.namespaceName
      partialSpec since where
  owned ok := checkRecordingOwner_ok.mp (updateMergedProfile_ok ok).1
  adds ok := mergeInto_within above.increases (updateMergedProfile_ok ok).2.1
  keeps ok later := mergeInto_keeps above.increases (updateMergedProfile_ok ok).2.1 (notEarlier.trans later)

end SecurityProfiles
