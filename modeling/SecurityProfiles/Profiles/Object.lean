import SecurityProfiles.Library.Store
import SecurityProfiles.AppArmor.Fieldwise
import SecurityProfiles.Profiles.Selinux

namespace SecurityProfiles

open VersionedStore

inductive ProfileRecordingKind where
  | seccompProfile
  | selinuxProfile
  | appArmorProfile
deriving DecidableEq

structure AppArmorProfileSpec where
  state : SpecState
  abstract : AppArmorAbstract
deriving DecidableEq

inductive Spec where
  | seccomp (spec : SeccompProfileSpec)
  | selinux (spec : SelinuxProfileSpec)
  | apparmor (spec : AppArmorProfileSpec)
  | recording
deriving DecidableEq

namespace Spec

def kind : Spec → Option ProfileRecordingKind
  | .seccomp _ => some .seccompProfile
  | .selinux _ => some .selinuxProfile
  | .apparmor _ => some .appArmorProfile
  | .recording => none

def state : Spec → SpecState
  | .seccomp spec => spec.state
  | .selinux spec => spec.state
  | .apparmor spec => spec.state
  | .recording => .unset

def withState : Spec → SpecState → Spec
  | .seccomp spec, state => .seccomp { spec with state := state }
  | .selinux spec, state => .selinux { spec with state := state }
  | .apparmor spec, state => .apparmor { spec with state := state }
  | .recording, _ => .recording

end Spec

/-- The labels that tie a profile to its recording. -/
structure Labels where
  recording : Option String
  recordingNamespace : Option String
  container : Option String
  partialProfile : Option String
deriving DecidableEq

/-- How many of the merged partial profiles contained each syscall. -/
structure SyscallCoverage where
  version : String
  total : Nat
  syscalls : SortedMap String Nat
deriving DecidableEq

structure Object where
  labels : Labels
  finalizers : List String
  syscallCoverage : Option SyscallCoverage
  spec : Spec
deriving DecidableEq

inductive Key where
  | profile (kind : ProfileRecordingKind) (name : String)
  | recording (namespaceName name : String)
deriving DecidableEq

structure Merger where
  unionSyscalls : List LinuxSyscall → List LinuxSyscall → List LinuxSyscall
  unionAppArmor : MergerUnion

/-- The unions of the merger library are upper bounds of both arguments. -/
structure Merger.Above (merger : Merger) : Prop where
  syscalls : UnionSyscallsAbove merger.unionSyscalls
  appArmor : UnionAppArmorAbove merger.unionAppArmor

/-- Unions that collect all entries of syscalls and work on AppArmor profiles field by field. -/
def plainMerger : Merger where
  unionSyscalls left right := regroupSyscalls (left ++ right)
  unionAppArmor left right := .ok (plainUnion left right)

theorem plainMerger_above : plainMerger.Above where
  syscalls left right rule listed := by
    apply rules_regroupSyscalls.mpr
    rcases listed with ⟨syscall, member, lists⟩ | ⟨syscall, member, lists⟩
    · exact ⟨syscall, List.mem_append_left _ member, lists⟩
    · exact ⟨syscall, List.mem_append_right _ member, lists⟩
  appArmor := plainUnion_above

inductive MergeError where
  | emptyList
  | kindMismatch
  | syscalls (error : SeccompError)
  | appArmor (error : String)
  | nilMap

/-- `merge` adds the rules of another profile of the same kind. All else stays as it is in the first. -/
def Spec.merge (merger : Merger) : Spec → Spec → Except MergeError Spec
  | .seccomp spec, .seccomp other =>
    match SecurityProfiles.unionSyscalls merger.unionSyscalls spec.syscalls other.syscalls with
    | .ok syscalls => .ok (.seccomp { spec with syscalls := syscalls })
    | .error error => .error (.syscalls error)
  | .selinux spec, .selinux other =>
    match addAllow spec.allow other.allow with
    | some allow => .ok (.selinux { spec with allow := allow })
    | none => .error .nilMap
  | .apparmor spec, .apparmor other =>
    match SecurityProfiles.unionAppArmor merger.unionAppArmor spec.abstract other.abstract with
    | .ok abstract => .ok (.apparmor { spec with abstract := abstract })
    | .error error => .error (.appArmor error)
  | _, _ => .error .kindMismatch

/-- A rule of a profile: a syscall, an SELinux permission or an AppArmor rule. -/
inductive Rule where
  | syscall (rule : SyscallRule)
  | selinux (label objClass perm : String)
  | apparmor (rule : AppArmorRule)
deriving DecidableEq

def Spec.Contains : Spec → Rule → Prop
  | .seccomp spec, .syscall rule => SyscallRules (syscallsToOCI spec.syscalls) rule
  | .selinux spec, .selinux label objClass perm => spec.allow.Permits label objClass perm
  | .apparmor spec, .apparmor rule => spec.abstract.Grants rule
  | _, _ => False

def Spec.Within (first second : Spec) : Prop := ∀ rule, first.Contains rule → second.Contains rule

theorem Spec.Within.refl (spec : Spec) : spec.Within spec := fun _ contained => contained

theorem Spec.Within.trans {first second third : Spec} (left : first.Within second) (right : second.Within third) :
    first.Within third :=
  fun rule contained => right rule (left rule contained)

@[simp] theorem Spec.contains_withState (spec : Spec) (state : SpecState) (rule : Rule) :
    (spec.withState state).Contains rule ↔ spec.Contains rule := by
  cases spec <;> cases rule <;> rfl

/-- A merge succeeds for two profiles of one kind whose rules can be united. -/
theorem Spec.merge_ok {merger : Merger} {spec other merged : Spec} (ok : spec.merge merger other = .ok merged) :
    (∃ first second syscalls, spec = .seccomp first ∧ other = .seccomp second ∧
      SecurityProfiles.unionSyscalls merger.unionSyscalls first.syscalls second.syscalls = .ok syscalls ∧
      merged = .seccomp { first with syscalls := syscalls }) ∨
    (∃ first second allow, spec = .selinux first ∧ other = .selinux second ∧
      addAllow first.allow second.allow = some allow ∧ merged = .selinux { first with allow := allow }) ∨
    ∃ first second abstract, spec = .apparmor first ∧ other = .apparmor second ∧
      SecurityProfiles.unionAppArmor merger.unionAppArmor first.abstract second.abstract = .ok abstract ∧
      merged = .apparmor { first with abstract := abstract } := by
  unfold Spec.merge at ok
  split at ok
  · split at ok
    · next united => exact Or.inl ⟨_, _, _, rfl, rfl, united, (Except.ok.inj ok).symm⟩
    · cases ok
  · split at ok
    · next united => exact Or.inr (Or.inl ⟨_, _, _, rfl, rfl, united, (Except.ok.inj ok).symm⟩)
    · cases ok
  · split at ok
    · next united => exact Or.inr (Or.inr ⟨_, _, _, rfl, rfl, united, (Except.ok.inj ok).symm⟩)
    · cases ok
  · cases ok

/-- A merged profile is above both profiles, as the content compares them. -/
def Merger.Increases {P : Type} [Preorder P] (merger : Merger) (content : Spec → P) : Prop :=
  ∀ {spec other merged}, spec.merge merger other = .ok merged →
    content spec ≤ content merged ∧ content other ≤ content merged

theorem Merger.increases_of_or {A : Type} {merger : Merger} {content : Spec → A → Prop}
    (either : ∀ {spec other merged item}, spec.merge merger other = .ok merged → content spec item ∨
      content other item → content merged item) :
    merger.Increases content :=
  fun ok => ⟨fun _ left => either ok (Or.inl left), fun _ right => either ok (Or.inr right)⟩

theorem Merger.Above.increases {merger : Merger} (above : merger.Above) : merger.Increases Spec.Contains := by
  refine Merger.increases_of_or fun {spec other merged rule} ok contained => ?_
  obtain ⟨first, second, syscalls, rfl, rfl, united, rfl⟩ | ⟨first, second, allow, rfl, rfl, united, rfl⟩ |
    ⟨first, second, abstract, rfl, rfl, united, rfl⟩ := Spec.merge_ok ok
  · cases rule with
    | syscall rule => exact unionSyscalls_rules above.syscalls united contained
    | selinux label objClass perm => exact contained.elim id id
    | apparmor rule => exact contained.elim id id
  · cases rule with
    | syscall rule => exact contained.elim id id
    | selinux label objClass perm => exact (permits_addAllow united label objClass perm).mpr contained
    | apparmor rule => exact contained.elim id id
  · cases rule with
    | syscall rule => exact contained.elim id id
    | selinux label objClass perm => exact contained.elim id id
    | apparmor rule => exact unionAppArmor_grants above.appArmor united contained

inductive OwnerError where
  | notRecorded
  | recordedBy (namespaceName : Option String) (name : String)

/-- `checkRecordingOwner` verifies that an existing profile was recorded by the recording. Profiles recorded
before the namespace label existed carry only the name. -/
def checkRecordingOwner (profile : Option (Stored Object)) (recordingName recordingNamespace : String) :
    Except OwnerError Unit :=
  match profile with
  | none => .ok ()
  | some stored =>
    match stored.body.labels.recording with
    | none => .error .notRecorded
    | some name =>
      if name ≠ recordingName ∨ (stored.body.labels.recordingNamespace.any (· ≠ recordingNamespace)) then
        .error (.recordedBy stored.body.labels.recordingNamespace name)
      else .ok ()

/-- The labels of a profile that somebody else owns: no recording, another one, or one in another namespace. -/
def Labels.Foreign (labels : Labels) (recordingName recordingNamespace : String) : Prop :=
  labels.recording = none ∨ (∃ name, labels.recording = some name ∧ name ≠ recordingName) ∨
    ∃ namespaceName, labels.recordingNamespace = some namespaceName ∧ namespaceName ≠ recordingNamespace

theorem checkRecordingOwner_ok {stored : Stored Object} {recordingName recordingNamespace : String} :
    checkRecordingOwner (some stored) recordingName recordingNamespace = .ok () ↔
      ¬ stored.body.labels.Foreign recordingName recordingNamespace := by
  unfold checkRecordingOwner Labels.Foreign
  cases recorded : stored.body.labels.recording with
  | none => simp [recorded]
  | some name =>
    cases owner : stored.body.labels.recordingNamespace with
    | none => by_cases same : name = recordingName <;> simp [same, recorded, owner]
    | some namespaceName =>
      by_cases same : name = recordingName <;> by_cases sameSpace : namespaceName = recordingNamespace <;>
        simp [same, sameSpace, recorded, owner]

end SecurityProfiles
