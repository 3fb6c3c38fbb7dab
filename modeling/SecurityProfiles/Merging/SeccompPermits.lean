import SecurityProfiles.Merging.MergeTyped

namespace SecurityProfiles

open VersionedStore List

/-- An entry that allows its syscalls whatever their arguments are. -/
def Syscall.IsPlainAllow (syscall : Syscall) : Prop :=
  syscall.action = .allow ∧ syscall.errnoRet = 0 ∧ syscall.args = []

def LinuxSyscall.IsPlainAllow (syscall : LinuxSyscall) : Prop :=
  syscall.action = .allow ∧ syscall.errnoRet = none ∧ syscall.args = []

namespace SeccompProfileSpec

/-- A profile with the shape the recorder produces. -/
def Recorded (spec : SeccompProfileSpec) : Prop :=
  spec.defaultAction = .errno ∧ ∀ syscall ∈ spec.syscalls, syscall.IsPlainAllow

def AllowsSyscall (spec : SeccompProfileSpec) (name : String) : Prop :=
  ∃ syscall ∈ spec.syscalls, syscall.IsPlainAllow ∧ name ∈ syscall.names

def Permits (spec : SeccompProfileSpec) (arch : Arch) (name : String) : Prop :=
  arch ∈ spec.architectures ∧ spec.AllowsSyscall name

end SeccompProfileSpec

/-- The union of the merger library is the union of the sets of names on entries without arguments that allow. -/
def UnionSyscallNames (union : List LinuxSyscall → List LinuxSyscall → List LinuxSyscall) : Prop :=
  ∀ left right, (∀ syscall ∈ left, syscall.IsPlainAllow) → (∀ syscall ∈ right, syscall.IsPlainAllow) →
    (∀ syscall ∈ union left right, syscall.IsPlainAllow) ∧
    ∀ name, (∃ syscall ∈ union left right, name ∈ syscall.names) ↔
      (∃ syscall ∈ left, name ∈ syscall.names) ∨ ∃ syscall ∈ right, name ∈ syscall.names

theorem Syscall.IsPlainAllow.toOCI {syscall : Syscall} (plain : syscall.IsPlainAllow) :
    (syscallToOCI syscall).IsPlainAllow := by
  obtain ⟨action, errnoRet, args⟩ := plain
  refine ⟨action, ?_, ?_⟩
  · simp [syscallToOCI, errnoRet, errnoRetToOCI]
  · simp [syscallToOCI, args]

/-- Such an entry is converted back without an error. -/
theorem LinuxSyscall.IsPlainAllow.fromOCI {syscall : LinuxSyscall} (plain : syscall.IsPlainAllow) :
    syscallFromOCI syscall = .ok { names := syscall.names, action := .allow, errnoRet := 0, args := [] } := by
  obtain ⟨action, errnoRet, args⟩ := plain
  simp only [syscallFromOCI, errnoRet, args, action]
  rfl

theorem syscallsFromOCI_plain {syscalls : List LinuxSyscall} (plain : ∀ syscall ∈ syscalls, syscall.IsPlainAllow) :
    syscallsFromOCI syscalls = .ok (syscalls.map fun syscall =>
      { names := syscall.names, action := .allow, errnoRet := 0, args := [] }) := by
  induction syscalls with
  | nil => rfl
  | cons syscall rest ih =>
    have first := (plain syscall mem_cons_self).fromOCI
    have others := ih fun other member => plain other (mem_cons_of_mem _ member)
    rw [syscallsFromOCI] at others ⊢
    rw [mapM_cons, first, others]
    rfl

/-- Merging recorded profiles gives a recorded profile that allows the syscalls of both. -/
theorem merge_seccomp_recorded {merger : Merger} (union : UnionSyscallNames merger.unionSyscalls)
    {first second : SeccompProfileSpec} (shapeFirst : first.Recorded) (shapeSecond : second.Recorded) :
    ∃ merged, (Spec.seccomp first).merge merger (.seccomp second) = .ok (.seccomp merged) ∧ merged.Recorded ∧
      merged.architectures = first.architectures ∧
      ∀ name, merged.AllowsSyscall name ↔ first.AllowsSyscall name ∨ second.AllowsSyscall name := by
  have plainOCI : ∀ {spec : SeccompProfileSpec}, spec.Recorded →
      ∀ syscall ∈ syscallsToOCI spec.syscalls, syscall.IsPlainAllow := by
    intro spec shape syscall member
    obtain ⟨original, originalMember, rfl⟩ := mem_map.mp member
    exact (shape.2 original originalMember).toOCI
  have names : ∀ {spec : SeccompProfileSpec}, spec.Recorded → ∀ name,
      (∃ syscall ∈ syscallsToOCI spec.syscalls, name ∈ syscall.names) ↔ spec.AllowsSyscall name := by
    intro spec shape name
    simp only [syscallsToOCI, mem_map, SeccompProfileSpec.AllowsSyscall]
    constructor
    · rintro ⟨_, ⟨original, member, rfl⟩, named⟩
      exact ⟨original, member, shape.2 original member, named⟩
    · rintro ⟨original, member, _, named⟩
      exact ⟨_, ⟨original, member, rfl⟩, named⟩
  obtain ⟨plain, both⟩ := union _ _ (plainOCI shapeFirst) (plainOCI shapeSecond)
  have converted := syscallsFromOCI_plain plain
  refine ⟨{ first with syscalls := (merger.unionSyscalls (syscallsToOCI first.syscalls)
    (syscallsToOCI second.syscalls)).map fun syscall =>
      { names := syscall.names, action := .allow, errnoRet := 0, args := [] } }, ?_, ?_, rfl, ?_⟩
  · simp only [Spec.merge, unionSyscalls, converted]
  · refine ⟨shapeFirst.1, ?_⟩
    intro syscall member
    obtain ⟨original, _, rfl⟩ := mem_map.mp member
    exact ⟨rfl, rfl, rfl⟩
  · intro name
    rw [← names shapeFirst, ← names shapeSecond, ← both name]
    constructor
    · rintro ⟨_, member, _, named⟩
      obtain ⟨original, originalMember, rfl⟩ := mem_map.mp member
      exact ⟨original, originalMember, named⟩
    · rintro ⟨original, originalMember, named⟩
      exact ⟨_, mem_map_of_mem originalMember, ⟨rfl, rfl, rfl⟩, named⟩

theorem foldlM_merge_recorded {merger : Merger} (union : UnionSyscallNames merger.unionSyscalls)
    {first : SeccompProfileSpec} {rest : List SeccompProfileSpec} (shapes : ∀ spec ∈ first :: rest, spec.Recorded) :
    ∃ merged, (rest.map Spec.seccomp).foldlM (Spec.merge merger) (.seccomp first) = .ok (.seccomp merged) ∧
      merged.Recorded ∧ merged.architectures = first.architectures ∧
      ∀ name, merged.AllowsSyscall name ↔ ∃ spec ∈ first :: rest, spec.AllowsSyscall name := by
  induction rest generalizing first with
  | nil => exact ⟨first, rfl, shapes first mem_cons_self, rfl, by simp⟩
  | cons second rest ih =>
    have shapeFirst := shapes first mem_cons_self
    have shapeSecond := shapes second (mem_cons_of_mem _ mem_cons_self)
    obtain ⟨middle, mergedMiddle, shapeMiddle, sameArchs, allowsMiddle⟩ :=
      merge_seccomp_recorded union shapeFirst shapeSecond
    have shapesMiddle : ∀ spec ∈ middle :: rest, spec.Recorded := by
      intro spec member
      rcases mem_cons.mp member with rfl | later
      · exact shapeMiddle
      · exact shapes spec (mem_cons_of_mem _ (mem_cons_of_mem _ later))
    obtain ⟨merged, folded, shape, archs, allows⟩ := ih shapesMiddle
    refine ⟨merged, ?_, shape, archs.trans sameArchs, ?_⟩
    · rw [map_cons, foldlM_cons, mergedMiddle]
      exact folded
    · intro name
      rw [allows name]
      simp only [exists_mem_cons_iff, allowsMiddle name, or_assoc]

/-- Merging the partial profiles and the existing one, as the merger does for a container. -/
def mergeRecorded (merger : Merger) (existing : Option (Stored Object)) (partials : List Spec)
    (recording : Recording) :
    Except MergeError Spec := do
  let merged ← mergeMergeableProfiles merger partials
  mergeInto merger existing merged recording

theorem mergeInto_recorded {merger : Merger} (union : UnionSyscallNames merger.unionSyscalls)
    {existing : Option (Stored Object)} (recording : Recording) {merged : SeccompProfileSpec}
    (shape : merged.Recorded)
    (shapeExisting : ∀ stored, existing = some stored → ∃ spec, stored.body.spec = .seccomp spec ∧ spec.Recorded) :
    ∃ result, mergeInto merger existing (.seccomp merged) recording = .ok (.seccomp result) ∧
      result.architectures = merged.architectures ∧ ∀ name, merged.AllowsSyscall name →
      result.AllowsSyscall name := by
  cases existing with
  | none => exact ⟨merged, rfl, rfl, fun _ allowed => allowed⟩
  | some stored =>
    by_cases earlier : stored.created < recording.created
    · exact ⟨merged, by rw [mergeInto, if_pos earlier], rfl, fun _ allowed => allowed⟩
    · obtain ⟨spec, same, shapeSpec⟩ := shapeExisting stored rfl
      obtain ⟨result, mergedOk, _, archs, allows⟩ := merge_seccomp_recorded union shape shapeSpec
      refine ⟨result, ?_, archs, fun name allowed => (allows name).mpr (Or.inl allowed)⟩
      rw [mergeInto, if_neg earlier, same]
      exact mergedOk

/-- Merging succeeds, and the result permits what each partial profile permits if and only if every partial profile
that allows a syscall lists no architecture besides those of the first one. -/
theorem merged_permits_iff {merger : Merger} (union : UnionSyscallNames merger.unionSyscalls)
    {first : SeccompProfileSpec} {rest : List SeccompProfileSpec} (shapes : ∀ spec ∈ first :: rest, spec.Recorded)
    {existing : Option (Stored Object)} (recording : Recording)
    (shapeExisting : ∀ stored, existing = some stored → ∃ spec, stored.body.spec = .seccomp spec ∧ spec.Recorded) :
    ∃ result, mergeRecorded merger existing ((first :: rest).map Spec.seccomp) recording = .ok (.seccomp result) ∧
      ((∀ spec ∈ first :: rest, ∀ arch name, spec.Permits arch name → result.Permits arch name) ↔
        ∀ spec ∈ first :: rest, (∃ name, spec.AllowsSyscall name) →
          ∀ arch ∈ spec.architectures, arch ∈ first.architectures) := by
  obtain ⟨merged, folded, shape, archs, allows⟩ := foldlM_merge_recorded union shapes
  obtain ⟨result, intoOk, archsInto, allowsInto⟩ := mergeInto_recorded union recording shape shapeExisting
  refine ⟨result, Fallible.bind_ok.mpr ⟨.seccomp merged, folded, intoOk⟩, ?_⟩
  constructor
  · intro permits spec member ⟨name, allowed⟩ arch listed
    have permitted := permits spec member arch name ⟨listed, allowed⟩
    rw [← archs, ← archsInto]
    exact permitted.1
  · intro covered spec member arch name permitted
    refine ⟨?_, allowsInto name ((allows name).mpr ⟨spec, member, permitted.2⟩)⟩
    rw [archsInto, archs]
    exact covered spec member ⟨name, permitted.2⟩ arch permitted.1

/-- What the recorder of a node stores for the syscalls it saw. -/
def recordedSeccomp (arch : Arch) (names : List String) : SeccompProfileSpec where
  state := .unset
  defaultAction := .errno
  architectures := [arch]
  syscalls := [{ names := names, action := .allow, errnoRet := 0, args := [] }]

theorem recordedSeccomp_recorded (arch : Arch) (names : List String) : (recordedSeccomp arch names).Recorded := by
  refine ⟨rfl, ?_⟩
  intro syscall member
  cases mem_singleton.mp member
  exact ⟨rfl, rfl, rfl⟩

theorem regroupSyscalls_plain {syscalls : List LinuxSyscall} (plain : ∀ syscall ∈ syscalls, syscall.IsPlainAllow) :
    ∀ group ∈ regroupSyscalls syscalls, group.IsPlainAllow := by
  have added : ∀ {entry : LinuxSyscall} {groups : List LinuxSyscall}, entry.IsPlainAllow →
      (∀ group ∈ groups, group.IsPlainAllow) → ∀ group ∈ addToGroup entry groups, group.IsPlainAllow := by
    intro entry groups plainEntry plainGroups
    fun_induction addToGroup entry groups with
    | case1 => exact fun group member => mem_singleton.mp member ▸ plainEntry
    | case2 group rest same =>
      rw [forall_mem_cons] at plainGroups ⊢
      exact plainGroups
    | case3 group rest different ih =>
      rw [forall_mem_cons] at plainGroups ⊢
      exact ⟨plainGroups.1, ih plainGroups.2⟩
  unfold regroupSyscalls
  have plainNamed : ∀ syscall ∈ syscalls.filter fun entry => entry.names ≠ [], syscall.IsPlainAllow :=
    fun syscall member => plain syscall (mem_filter.mp member).1
  generalize syscalls.filter _ = named at plainNamed
  induction named with
  | nil => simp
  | cons entry rest ih =>
    rw [forall_mem_cons] at plainNamed
    exact added plainNamed.1 (ih plainNamed.2)

theorem plainMerger_names : UnionSyscallNames plainMerger.unionSyscalls := by
  intro left right plainLeft plainRight
  have plain : ∀ syscall ∈ left ++ right, syscall.IsPlainAllow := by
    intro syscall member
    rcases mem_append.mp member with inLeft | inRight
    · exact plainLeft syscall inLeft
    · exact plainRight syscall inRight
  have rules : ∀ {syscalls : List LinuxSyscall}, (∀ syscall ∈ syscalls, syscall.IsPlainAllow) → ∀ name,
      (∃ syscall ∈ syscalls, name ∈ syscall.names) ↔ SyscallRules syscalls ⟨name, .allow, none, []⟩ := by
    intro syscalls plain name
    exact ⟨fun ⟨syscall, member, named⟩ => ⟨syscall, member, named, plain syscall member⟩,
      fun ⟨syscall, member, lists⟩ => ⟨syscall, member, lists.1⟩⟩
  refine ⟨regroupSyscalls_plain plain, ?_⟩
  intro name
  show (∃ syscall ∈ regroupSyscalls (left ++ right), name ∈ syscall.names) ↔ _
  rw [rules (regroupSyscalls_plain plain), rules_regroupSyscalls, ← rules plain]
  simp only [mem_append, or_and_right, exists_or]

/-- Both nodes run the same architecture. -/
theorem webSyscalls_permitted : ∃ result,
    mergeRecorded plainMerger none
      [.seccomp (recordedSeccomp .x86_64 ["read"]), .seccomp (recordedSeccomp .x86_64 ["open", "write"])]
      { name := "rec", namespaceName := "ns", created := 10 } = .ok (.seccomp result) ∧
    ∀ spec ∈ [recordedSeccomp .x86_64 ["read"], recordedSeccomp .x86_64 ["open", "write"]],
      ∀ arch name, spec.Permits arch name → result.Permits arch name := by
  have shapes : ∀ spec ∈ [recordedSeccomp .x86_64 ["read"], recordedSeccomp .x86_64 ["open", "write"]],
      spec.Recorded := by
    simp [recordedSeccomp_recorded]
  have noProfile : ∀ stored, (none : Option (Stored Object)) = some stored →
      ∃ spec, stored.body.spec = .seccomp spec ∧ spec.Recorded := by
    simp
  obtain ⟨result, merged, permits⟩ := merged_permits_iff plainMerger_names shapes
    { name := "rec", namespaceName := "ns", created := 10 } noProfile
  refine ⟨result, merged, permits.mpr ?_⟩
  intro spec member _ arch listed
  rcases mem_cons.mp member with rfl | member
  · exact listed
  · cases mem_singleton.mp member
    exact listed

/-- The profile of a second node with another architecture is not permitted there. -/
theorem second_architecture_dropped : ∃ result,
    mergeRecorded plainMerger none
      [.seccomp (recordedSeccomp .x86_64 ["read"]), .seccomp (recordedSeccomp .aarch64 ["read"])]
      { name := "rec", namespaceName := "ns", created := 10 } = .ok (.seccomp result) ∧
    (recordedSeccomp .aarch64 ["read"]).Recorded ∧ (recordedSeccomp .aarch64 ["read"]).Permits .aarch64 "read" ∧
    ¬ result.Permits .aarch64 "read" := by
  refine ⟨_, rfl, recordedSeccomp_recorded _ _, ⟨mem_cons_self, _, mem_cons_self, ⟨rfl, rfl, rfl⟩,
    mem_cons_self⟩, ?_⟩
  rintro ⟨listed, _⟩
  exact absurd listed (by decide)

end SecurityProfiles
