import Mathlib.Data.String.Basic
import SecurityProfiles.Library.Fallible
import SecurityProfiles.Library.FixedWidth
import SecurityProfiles.Library.Text

namespace SecurityProfiles

open FixedWidth List

inductive SpecState where
  | unset
  | enabled
  | disabled
deriving DecidableEq

inductive Action where
  | kill
  | killProcess
  | killThread
  | trap
  | errno
  | trace
  | allow
  | log
  | notify
deriving DecidableEq

inductive Operator where
  | ne
  | lt
  | le
  | eq
  | ge
  | gt
  | maskedEq
deriving DecidableEq

inductive Arch where
  | native
  | x86
  | x86_64
  | x32
  | arm
  | aarch64
  | mips
  | mips64
  | mips64n32
  | mipsel
  | mipsel64
  | mipsel64n32
  | ppc
  | ppc64
  | ppc64le
  | s390
  | s390x
  | parisc
  | parisc64
  | riscv64
deriving DecidableEq

structure Arg where
  index : Option Int
  value : Int
  valueTwo : Int
  op : Operator
deriving DecidableEq

structure Syscall where
  names : List String
  action : Action
  errnoRet : Int
  args : List Arg
deriving DecidableEq

structure SeccompProfileSpec where
  state : SpecState
  defaultAction : Action
  architectures : List Arch
  syscalls : List Syscall
deriving DecidableEq

/-- A syscall argument as the container runtime reads it. -/
structure LinuxSeccompArg where
  index : Nat
  value : Nat
  valueTwo : Nat
  op : Operator
deriving DecidableEq

structure LinuxSyscall where
  names : List String
  action : Action
  errnoRet : Option Nat
  args : List LinuxSeccompArg
deriving DecidableEq

inductive SeccompError where
  | indexOutOfRange (index : Nat)
  | valueOutOfRange (value : Nat)
  | valueTwoOutOfRange (value : Nat)
  | errnoRetOutOfRange (errnoRet : Nat)
deriving DecidableEq

def argToOCI (arg : Arg) : LinuxSeccompArg where
  index := uint64 (arg.index.getD 0)
  value := uint64 arg.value
  valueTwo := uint64 arg.valueTwo
  op := arg.op

def argFromOCI (arg : LinuxSeccompArg) : Except SeccompError Arg :=
  if maxInt32 < arg.index then .error (.indexOutOfRange arg.index)
  else if maxInt64 < arg.value then .error (.valueOutOfRange arg.value)
  else if maxInt64 < arg.valueTwo then .error (.valueTwoOutOfRange arg.valueTwo)
  else .ok {
    index := some (int32 arg.index)
    value := int64 arg.value
    valueTwo := int64 arg.valueTwo
    op := arg.op }

def errnoRetToOCI (errnoRet : Int) : Option Nat := if errnoRet ≤ 0 then none else some errnoRet.toNat

def errnoRetFromOCI : Option Nat → Except SeccompError Int
  | none => .ok 0
  | some errnoRet =>
    if maxInt32 < errnoRet then .error (.errnoRetOutOfRange errnoRet) else .ok (int32 errnoRet)

def syscallToOCI (syscall : Syscall) : LinuxSyscall where
  names := syscall.names
  action := syscall.action
  errnoRet := errnoRetToOCI syscall.errnoRet
  args := syscall.args.map argToOCI

def syscallFromOCI (syscall : LinuxSyscall) : Except SeccompError Syscall := do
  let errnoRet ← errnoRetFromOCI syscall.errnoRet
  let args ← syscall.args.mapM argFromOCI
  return { names := syscall.names, action := syscall.action, errnoRet := errnoRet, args := args }

def syscallsToOCI (syscalls : List Syscall) : List LinuxSyscall := syscalls.map syscallToOCI

def syscallsFromOCI (syscalls : List LinuxSyscall) : Except SeccompError (List Syscall) :=
  syscalls.mapM syscallFromOCI

/-- `unionSyscalls` merges two lists of syscalls by the union of the merger library. -/
def unionSyscalls (union : List LinuxSyscall → List LinuxSyscall → List LinuxSyscall)
    (syscalls appliedSyscalls : List Syscall) : Except SeccompError (List Syscall) :=
  syscallsFromOCI (union (syscallsToOCI syscalls) (syscallsToOCI appliedSyscalls))

/-- One syscall with what happens to it under which arguments. -/
structure SyscallRule where
  name : String
  action : Action
  errnoRet : Option Nat
  args : List LinuxSeccompArg
deriving DecidableEq

def LinuxSyscall.Lists (syscall : LinuxSyscall) (rule : SyscallRule) : Prop :=
  rule.name ∈ syscall.names ∧ syscall.action = rule.action ∧ syscall.errnoRet = rule.errnoRet ∧
    syscall.args = rule.args

instance (syscall : LinuxSyscall) (rule : SyscallRule) : Decidable (syscall.Lists rule) :=
  inferInstanceAs (Decidable (_ ∧ _ ∧ _ ∧ _))

def SyscallRules (syscalls : List LinuxSyscall) (rule : SyscallRule) : Prop :=
  ∃ syscall ∈ syscalls, syscall.Lists rule

instance (syscalls : List LinuxSyscall) (rule : SyscallRule) : Decidable (SyscallRules syscalls rule) :=
  inferInstanceAs (Decidable (∃ syscall ∈ syscalls, syscall.Lists rule))

/-- An argument that passes the range checks comes back from the API as it was: the checks are what keeps the
conversions to int32 and int64 from wrapping. -/
theorem argToOCI_of_fromOCI {arg : LinuxSeccompArg} {converted : Arg}
    (ok : argFromOCI arg = .ok converted) : argToOCI converted = arg := by
  unfold argFromOCI at ok
  split at ok
  · cases ok
  split at ok
  · cases ok
  split at ok
  · cases ok
  next index value valueTwo =>
    have index := Nat.le_of_not_lt index
    have value := Nat.le_of_not_lt value
    have valueTwo := Nat.le_of_not_lt valueTwo
    rw [int32_of_le index, int64_of_le value, int64_of_le valueTwo] at ok
    obtain rfl := Except.ok.inj ok
    have narrow : maxInt32 ≤ maxInt64 := by decide
    simp only [argToOCI, Option.getD_some]
    rw [uint64_of_le (index.trans narrow), uint64_of_le value, uint64_of_le valueTwo]

theorem argsToOCI_of_fromOCI {args : List LinuxSeccompArg} {converted : List Arg}
    (ok : args.mapM argFromOCI = .ok converted) : converted.map argToOCI = args := by
  have pairs := Fallible.mapM_ok ok
  clear ok
  induction pairs with
  | nil => rfl
  | cons first _ ih => rw [map_cons, argToOCI_of_fromOCI first, ih]

theorem errnoRetToOCI_ne_zero (errnoRet : Int) : errnoRetToOCI errnoRet ≠ some 0 := by
  unfold errnoRetToOCI
  split
  · simp
  · simp only [ne_eq, Option.some.injEq]
    omega

theorem errnoRetToOCI_of_fromOCI {errnoRet : Option Nat} {converted : Int}
    (ok : errnoRetFromOCI errnoRet = .ok converted) (nonzero : errnoRet ≠ some 0) :
    errnoRetToOCI converted = errnoRet := by
  cases errnoRet with
  | none =>
    cases ok
    rfl
  | some value =>
    have positive : value ≠ 0 := fun zero => nonzero (by rw [zero])
    simp only [errnoRetFromOCI] at ok
    split at ok
    · cases ok
    next fits =>
      obtain rfl := Except.ok.inj ok
      rw [int32_of_le (Nat.le_of_not_lt fits), errnoRetToOCI, if_neg (by omega), Int.toNat_natCast]

variable {rule : SyscallRule} {syscalls : List LinuxSyscall}

/-- Converting an entry back keeps its rules. -/
theorem syscallFromOCI_lists {syscall : LinuxSyscall} {converted : Syscall}
    (ok : syscallFromOCI syscall = .ok converted) (listed : syscall.Lists rule) (nonzero : rule.errnoRet ≠ some 0) :
    (syscallToOCI converted).Lists rule := by
  obtain ⟨errnoRet, errnoOk, ok⟩ := Fallible.bind_ok.mp ok
  obtain ⟨args, argsOk, ok⟩ := Fallible.bind_ok.mp ok
  obtain rfl := Fallible.pure_ok.mp ok
  obtain ⟨named, sameAction, sameErrno, sameArgs⟩ := listed
  refine ⟨named, sameAction, ?_, ?_⟩
  · exact (errnoRetToOCI_of_fromOCI errnoOk (sameErrno ▸ nonzero)).trans sameErrno
  · exact (argsToOCI_of_fromOCI argsOk).trans sameArgs

theorem syscallsFromOCI_rules {converted : List Syscall}
    (ok : syscallsFromOCI syscalls = .ok converted) (listed : SyscallRules syscalls rule)
    (nonzero : rule.errnoRet ≠ some 0) : SyscallRules (syscallsToOCI converted) rule := by
  have pairs := Fallible.mapM_ok ok
  obtain ⟨syscall, member, lists⟩ := listed
  obtain ⟨index, inRange, rfl⟩ := getElem_of_mem member
  have inRange' : index < converted.length := pairs.length_eq ▸ inRange
  refine ⟨syscallToOCI converted[index], mem_map_of_mem (getElem_mem inRange'), ?_⟩
  exact syscallFromOCI_lists (pairs.get inRange inRange') lists nonzero

/-- The rules of converted entries never carry a zero return code. -/
theorem SyscallRules.errnoRet_ne_zero {syscalls : List Syscall}
    (listed : SyscallRules (syscallsToOCI syscalls) rule) : rule.errnoRet ≠ some 0 := by
  obtain ⟨_, member, _, _, sameErrno, _⟩ := listed
  obtain ⟨syscall, _, rfl⟩ := mem_map.mp member
  exact sameErrno ▸ errnoRetToOCI_ne_zero syscall.errnoRet

/-- The union of the merger library drops no rule of either list. -/
def UnionSyscallsAbove (union : List LinuxSyscall → List LinuxSyscall → List LinuxSyscall) : Prop :=
  ∀ left right rule, SyscallRules left rule ∨ SyscallRules right rule → SyscallRules (union left right) rule

theorem unionSyscalls_rules {union : List LinuxSyscall → List LinuxSyscall → List LinuxSyscall}
    (above : UnionSyscallsAbove union) {syscalls applied merged : List Syscall}
    (ok : unionSyscalls union syscalls applied = .ok merged)
    (listed : SyscallRules (syscallsToOCI syscalls) rule ∨ SyscallRules (syscallsToOCI applied) rule) :
    SyscallRules (syscallsToOCI merged) rule := by
  refine syscallsFromOCI_rules ok (above _ _ rule listed) ?_
  rcases listed with left | right
  · exact left.errnoRet_ne_zero
  · exact right.errnoRet_ne_zero

/-- Add an entry to the one with the same action, return code and arguments. -/
def addToGroup (entry : LinuxSyscall) : List LinuxSyscall → List LinuxSyscall
  | [] => [{ entry with names := Text.compact (Text.sort entry.names) }]
  | group :: rest =>
    if group.action = entry.action ∧ group.errnoRet = entry.errnoRet ∧ group.args = entry.args then
      { group with names := Text.compact (Text.sort (entry.names ++ group.names)) } :: rest
    else group :: addToGroup entry rest

/-- `regroupSyscalls` merges the entries that differ in their names only. -/
def regroupSyscalls (syscalls : List LinuxSyscall) : List LinuxSyscall :=
  (syscalls.filter fun entry => entry.names ≠ []).foldr addToGroup []

theorem rules_addToGroup {entry : LinuxSyscall} {groups : List LinuxSyscall} :
    SyscallRules (addToGroup entry groups) rule ↔ entry.Lists rule ∨ SyscallRules groups rule := by
  induction groups with
  | nil => simp [addToGroup, SyscallRules, LinuxSyscall.Lists, Text.mem_compact_sort]
  | cons group rest ih =>
    unfold addToGroup
    split
    · next same =>
        obtain ⟨sameAction, sameErrno, sameArgs⟩ := same
        simp only [SyscallRules, exists_mem_cons_iff, LinuxSyscall.Lists, Text.mem_compact_sort,
          mem_append, sameAction, sameErrno, sameArgs, or_and_right, or_assoc]
    · simp only [SyscallRules, exists_mem_cons_iff] at ih ⊢
      rw [ih]
      exact or_left_comm

theorem rules_regroupSyscalls :
    SyscallRules (regroupSyscalls syscalls) rule ↔ SyscallRules syscalls rule := by
  unfold regroupSyscalls
  induction syscalls with
  | nil => simp [SyscallRules]
  | cons entry rest ih =>
    by_cases nameless : entry.names = []
    · rw [filter_cons_of_neg (by simp [nameless]), ih]
      simp [SyscallRules, LinuxSyscall.Lists, nameless]
    · rw [filter_cons_of_pos (by simp [nameless]), foldr_cons, rules_addToGroup, ih]
      simp [SyscallRules]

end SecurityProfiles
