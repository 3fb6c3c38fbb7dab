import SecurityProfiles.Profiles.Object

namespace SecurityProfiles

open List

/-- How permissive an action is, from killing the process to allowing the call. -/
def Action.level : Action → Nat
  | .killProcess => 0
  | .kill => 1
  | .killThread => 1
  | .trap => 2
  | .errno => 3
  | .notify => 4
  | .trace => 5
  | .log => 6
  | .allow => 7

/-- The condition on the value of an argument, as libseccomp compiles it. -/
def LinuxSeccompArg.holds (arg : LinuxSeccompArg) (value : Nat) : Bool :=
  match arg.op with
  | .ne => value ≠ arg.value
  | .lt => value < arg.value
  | .le => value ≤ arg.value
  | .eq => value = arg.value
  | .ge => arg.value ≤ value
  | .gt => arg.value < value
  | .maskedEq => value &&& arg.value = arg.valueTwo &&& arg.value

/-- The filters that an entry is loaded as. One that repeats an argument has a filter for each condition, and a
condition with an empty mask is dropped. -/
def filtersOf (args : List LinuxSeccompArg) : List (List LinuxSeccompArg) :=
  let kept := List.filter fun arg => ¬ (arg.op = .maskedEq ∧ arg.value = 0)
  if (args.map (·.index)).Nodup then [kept args] else args.map fun arg => kept [arg]

/-- The clauses for a syscall: an action, and the filter it has. -/
def clausesOf (name : String) (syscalls : List LinuxSyscall) : List (Action × List LinuxSeccompArg) :=
  syscalls.flatMap fun syscall =>
    if name ∈ syscall.names then (filtersOf syscall.args).map (syscall.action, ·) else []

/-- A syscall with the values of its arguments. -/
structure SyscallCall where
  name : String
  args : Nat → Nat

/-- The entries let the call through with the action or a more permissive one. The first clause without a filter
decides every call. If there is none, the most permissive clause that matches decides. -/
def PermitsCall (syscalls : List LinuxSyscall) (call : SyscallCall) (action : Action) : Prop :=
  match (clausesOf call.name syscalls).find? (·.2.isEmpty) with
  | some clause => action.level ≤ clause.1.level
  | none => ∃ clause ∈ clausesOf call.name syscalls,
      (∀ arg ∈ clause.2, arg.holds (call.args arg.index) = true) ∧ action.level ≤ clause.1.level

theorem clausesOf_fromOCI {syscalls : List LinuxSyscall} {converted : List Syscall} (name : String)
    (ok : syscallsFromOCI syscalls = .ok converted) :
    clausesOf name (syscallsToOCI converted) = clausesOf name syscalls := by
  have pairs := Fallible.mapM_ok ok
  clear ok
  induction pairs with
  | nil => rfl
  | cons first _ ih =>
    obtain ⟨errnoRet, _, first⟩ := Fallible.bind_ok.mp first
    obtain ⟨args, argsOk, first⟩ := Fallible.bind_ok.mp first
    obtain rfl := Fallible.pure_ok.mp first
    have same := argsToOCI_of_fromOCI argsOk
    simp only [clausesOf, syscallsToOCI, map_cons, flatMap_cons, syscallToOCI, same] at ih ⊢
    rw [ih]

inductive ProfileAccess where
  | call (call : SyscallCall) (action : Action)
  | selinux (label objClass perm : String)
  | apparmor (access : AppArmorRule)

/-- What the rules of a profile permit. The architectures of a seccomp profile are not among its rules. -/
def Spec.Permits (covers : Str → Str → Prop) : Spec → ProfileAccess → Prop
  | .seccomp spec, .call call action => PermitsCall (syscallsToOCI spec.syscalls) call action
  | .selinux spec, .selinux label objClass perm => spec.allow.Permits label objClass perm
  | .apparmor spec, .apparmor access => spec.abstract.Permits covers access
  | _, _ => False

/-- The unions of the merger library never permit less than either argument, though their rules may differ: an entry
without conditions takes the place of those with conditions, and a pattern that of the paths it covers. -/
structure Merger.Permissive (covers : Str → Str → Prop) (merger : Merger) : Prop where
  syscalls : ∀ left right call action, PermitsCall left call action ∨ PermitsCall right call action →
    PermitsCall (merger.unionSyscalls left right) call action
  appArmor : UnionAppArmorPermits covers merger.unionAppArmor

variable {covers : Str → Str → Prop} {merger : Merger}

/-- A permissive merger takes nothing away that one of the profiles permits, whatever their kind is. -/
theorem Merger.Permissive.increases (permissive : merger.Permissive covers) :
    merger.Increases (Spec.Permits covers) := by
  refine Merger.increases_of_or fun {spec other merged access} ok permitted => ?_
  obtain ⟨first, second, syscalls, rfl, rfl, united, rfl⟩ | ⟨first, second, allow, rfl, rfl, united, rfl⟩ |
    ⟨first, second, abstract, rfl, rfl, united, rfl⟩ := Spec.merge_ok ok
  all_goals rcases access with ⟨call, action⟩ | ⟨label, objClass, perm⟩ | access <;> try exact permitted.elim id id
  · have atUnion := permissive.syscalls _ _ call action permitted
    rwa [PermitsCall, ← clausesOf_fromOCI call.name united] at atUnion
  · exact (permits_addAllow united label objClass perm).mpr permitted
  · exact unionAppArmor_permits permissive.appArmor united permitted

/-- Unions that allow every syscall either list names. On what the recorder writes, entries that allow their
syscalls whatever the arguments are, this is the union of the merger library. -/
def allowingMerger : Merger where
  unionSyscalls left right :=
    (left ++ right).map fun syscall => { syscall with action := .allow, errnoRet := none, args := [] }
  unionAppArmor left right := .ok (plainUnion left right)

theorem exists_named_of_permitsCall {syscalls : List LinuxSyscall} {call : SyscallCall} {action : Action}
    (permitted : PermitsCall syscalls call action) : ∃ syscall ∈ syscalls, call.name ∈ syscall.names := by
  obtain ⟨clause, member⟩ : ∃ clause, clause ∈ clausesOf call.name syscalls := by
    unfold PermitsCall at permitted
    split at permitted
    · next clause found => exact ⟨clause, mem_of_find?_eq_some found⟩
    · obtain ⟨clause, member, _⟩ := permitted
      exact ⟨clause, member⟩
  obtain ⟨syscall, listed, inEntry⟩ := mem_flatMap.mp member
  by_cases named : call.name ∈ syscall.names
  · exact ⟨syscall, listed, named⟩
  · rw [if_neg named] at inEntry
    cases inEntry

theorem allowingMerger_permissive : allowingMerger.Permissive covers where
  appArmor := plainUnion_above.permits
  syscalls left right call action permitted := by
    obtain ⟨syscall, listed, named⟩ : ∃ syscall ∈ left ++ right, call.name ∈ syscall.names := by
      rcases permitted with inLeft | inRight
      · obtain ⟨syscall, listed, named⟩ := exists_named_of_permitsCall inLeft
        exact ⟨syscall, mem_append_left _ listed, named⟩
      · obtain ⟨syscall, listed, named⟩ := exists_named_of_permitsCall inRight
        exact ⟨syscall, mem_append_right _ listed, named⟩
    have allows : ∀ clause ∈ clausesOf call.name (allowingMerger.unionSyscalls left right),
        clause = (Action.allow, []) := by
      intro clause member
      obtain ⟨entry, inUnion, inEntry⟩ := mem_flatMap.mp member
      obtain ⟨original, _, rfl⟩ := mem_map.mp inUnion
      split at inEntry
      · exact mem_singleton.mp inEntry
      · cases inEntry
    have listedToo : (Action.allow, []) ∈ clausesOf call.name (allowingMerger.unionSyscalls left right) :=
      mem_flatMap.mpr ⟨_, mem_map_of_mem listed, by simp [named, filtersOf]⟩
    unfold PermitsCall
    split
    · next clause found =>
        rw [allows clause (mem_of_find?_eq_some found)]
        cases action <;> decide
    · next missing => exact absurd rfl (find?_eq_none.mp missing _ listedToo)

end SecurityProfiles
