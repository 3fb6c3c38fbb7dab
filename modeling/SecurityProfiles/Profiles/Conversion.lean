import SecurityProfiles.Profiles.Seccomp

namespace SecurityProfiles

open FixedWidth

def Arg.number (arg : Arg) : Int := arg.index.getD 0

/-- The numbers of an argument are of type int32 and int64. -/
structure Arg.InRange (arg : Arg) : Prop where
  index : -2 ^ 31 ≤ arg.number ∧ arg.number < 2 ^ 31
  value : -2 ^ 63 ≤ arg.value ∧ arg.value < 2 ^ 63
  valueTwo : -2 ^ 63 ≤ arg.valueTwo ∧ arg.valueTwo < 2 ^ 63

/-- An entry of the API, whose numbers have a fixed width. -/
structure TypedSyscall extends Syscall where
  errnoInRange : -2 ^ 31 ≤ errnoRet ∧ errnoRet < 2 ^ 31
  argsInRange : ∀ arg ∈ args, arg.InRange

def Arg.Negative (arg : Arg) : Prop := arg.number < 0 ∨ arg.value < 0 ∨ arg.valueTwo < 0

def Arg.explicit (arg : Arg) : Arg := { arg with index := some arg.number }

/-- The entry with an index for each argument and no negative return code. -/
def Syscall.explicit (syscall : Syscall) : Syscall :=
  { syscall with errnoRet := max syscall.errnoRet 0, args := syscall.args.map Arg.explicit }

/-- The entry without a return code of zero. -/
def LinuxSyscall.withoutZero (syscall : LinuxSyscall) : LinuxSyscall :=
  { syscall with errnoRet := if syscall.errnoRet = some 0 then none else syscall.errnoRet }

/-- An argument without negative numbers comes back, with its index written out. -/
theorem argFromOCI_toOCI {arg : Arg} (inRange : arg.InRange) (nonneg : ¬arg.Negative) :
    argFromOCI (argToOCI arg) = .ok arg.explicit := by
  obtain ⟨⟨_, indexHigh⟩, ⟨_, valueHigh⟩, ⟨_, valueTwoHigh⟩⟩ := inRange
  simp only [Arg.Negative, not_or, not_lt] at nonneg
  obtain ⟨indexLow, valueLow, valueTwoLow⟩ := nonneg
  have index : ((argToOCI arg).index : Int) = arg.number := uint64_of_nonneg indexLow (indexHigh.trans (by decide))
  have value : ((argToOCI arg).value : Int) = arg.value := uint64_of_nonneg valueLow valueHigh
  have valueTwo : ((argToOCI arg).valueTwo : Int) = arg.valueTwo := uint64_of_nonneg valueTwoLow valueTwoHigh
  have indexFits : (argToOCI arg).index ≤ maxInt32 := by
    unfold maxInt32
    omega
  have valueFits : (argToOCI arg).value ≤ maxInt64 := by
    unfold maxInt64
    omega
  have valueTwoFits : (argToOCI arg).valueTwo ≤ maxInt64 := by
    unfold maxInt64
    omega
  unfold argFromOCI
  rw [if_neg indexFits.not_gt, if_neg valueFits.not_gt, if_neg valueTwoFits.not_gt, int32_of_le indexFits,
    int64_of_le valueFits, int64_of_le valueTwoFits, index, value, valueTwo]
  rfl

theorem argFromOCI_negative {arg : Arg} (inRange : arg.InRange) (negative : arg.Negative) :
    ∃ error, argFromOCI (argToOCI arg) = .error error := by
  have narrow : maxInt32 ≤ maxInt64 := by decide
  unfold argFromOCI
  split
  · exact ⟨_, rfl⟩
  next index =>
  split
  · exact ⟨_, rfl⟩
  next value =>
  split
  · exact ⟨_, rfl⟩
  next valueTwo =>
    exfalso
    rcases negative with below | below | below
    · have low : -2 ^ 63 ≤ arg.number := by
        have := inRange.index.1
        omega
      exact index (narrow.trans_lt (uint64_of_neg low below))
    · exact value (uint64_of_neg inRange.value.1 below)
    · exact valueTwo (uint64_of_neg inRange.valueTwo.1 below)

theorem errnoRetFromOCI_toOCI {errnoRet : Int} (inRange : errnoRet < 2 ^ 31) :
    errnoRetFromOCI (errnoRetToOCI errnoRet) = .ok (max errnoRet 0) := by
  unfold errnoRetToOCI
  split
  · next low => rw [max_eq_right low, errnoRetFromOCI]
  · next positive =>
      have fits : errnoRet.toNat ≤ maxInt32 := by
        unfold maxInt32
        omega
      rw [errnoRetFromOCI, if_neg fits.not_gt, int32_of_le fits, Int.toNat_of_nonneg (by omega),
        max_eq_left (by omega)]

theorem syscallFromOCI_toOCI (syscall : TypedSyscall) (nonneg : ∀ arg ∈ syscall.args, ¬arg.Negative) :
    syscallFromOCI (syscallToOCI syscall.toSyscall) = .ok syscall.explicit := by
  have args : (syscall.args.map argToOCI).mapM argFromOCI = .ok (syscall.args.map Arg.explicit) := by
    rw [List.mapM_map]
    exact Fallible.mapM_of_forall fun arg member => argFromOCI_toOCI (syscall.argsInRange arg member)
      (nonneg arg member)
  simp only [syscallFromOCI, syscallToOCI, errnoRetFromOCI_toOCI syscall.errnoInRange.2, args]
  rfl

theorem syscallFromOCI_negative (syscall : TypedSyscall) {arg : Arg} (member : arg ∈ syscall.args)
    (negative : arg.Negative) (converted : Syscall) :
    syscallFromOCI (syscallToOCI syscall.toSyscall) ≠ .ok converted := by
  intro ok
  obtain ⟨_, _, ok⟩ := Fallible.bind_ok.mp ok
  obtain ⟨args, mapped, _⟩ := Fallible.bind_ok.mp ok
  obtain ⟨output, _, isOutput⟩ := (Fallible.mapM_mem mapped).1 (argToOCI arg) (List.mem_map_of_mem member)
  obtain ⟨error, isError⟩ := argFromOCI_negative (syscall.argsInRange arg member) negative
  rw [isError] at isOutput
  cases isOutput

theorem syscallToOCI_fromOCI {syscall : LinuxSyscall} {converted : Syscall}
    (ok : syscallFromOCI syscall = .ok converted) : syscallToOCI converted = syscall.withoutZero := by
  obtain ⟨errnoRet, errnoOk, ok⟩ := Fallible.bind_ok.mp ok
  obtain ⟨args, argsOk, ok⟩ := Fallible.bind_ok.mp ok
  obtain rfl := Fallible.pure_ok.mp ok
  have errno : errnoRetToOCI errnoRet = if syscall.errnoRet = some 0 then none else syscall.errnoRet := by
    split
    · next zero =>
        rw [zero] at errnoOk
        cases errnoOk
        rfl
    · next nonzero => exact errnoRetToOCI_of_fromOCI errnoOk nonzero
  simp only [syscallToOCI, LinuxSyscall.withoutZero, argsToOCI_of_fromOCI argsOk, errno]

/-- Nothing wraps and nothing is dropped. Entries come back as they were, unless an argument has a negative
number: then the conversion fails. Entries of the runtime that can be converted come back without a return
code of zero. -/
theorem syscalls_round_trip (syscalls : List TypedSyscall) (entries : List LinuxSyscall) :
    (syscallsFromOCI (syscallsToOCI (syscalls.map (·.toSyscall))) = .ok (syscalls.map (·.explicit)) ∨
      (∃ syscall ∈ syscalls, ∃ arg ∈ syscall.args, arg.Negative) ∧
        ∃ error, syscallsFromOCI (syscallsToOCI (syscalls.map (·.toSyscall))) = .error error) ∧
    ∀ converted, syscallsFromOCI entries = .ok converted →
      syscallsToOCI converted = entries.map LinuxSyscall.withoutZero := by
  have there : syscallsFromOCI (syscallsToOCI (syscalls.map (·.toSyscall))) =
      syscalls.mapM fun syscall => syscallFromOCI (syscallToOCI syscall.toSyscall) := by
    rw [syscallsFromOCI, syscallsToOCI, List.map_map, List.mapM_map]
    rfl
  refine ⟨?_, fun converted ok => ?_⟩
  · rw [there]
    by_cases negative : ∃ syscall ∈ syscalls, ∃ arg ∈ syscall.args, arg.Negative
    · refine Or.inr ⟨negative, ?_⟩
      obtain ⟨syscall, member, arg, isArg, below⟩ := negative
      cases outcome : syscalls.mapM fun syscall => syscallFromOCI (syscallToOCI syscall.toSyscall) with
      | error error => exact ⟨error, rfl⟩
      | ok converted =>
        obtain ⟨output, _, isOutput⟩ := (Fallible.mapM_mem outcome).1 syscall member
        exact absurd isOutput (syscallFromOCI_negative syscall isArg below output)
    · refine Or.inl (Fallible.mapM_of_forall fun syscall member => syscallFromOCI_toOCI syscall ?_)
      exact fun arg isArg below => negative ⟨syscall, member, arg, isArg, below⟩
  · have pairs := Fallible.mapM_ok ok
    clear ok
    induction pairs with
    | nil => rfl
    | cons first _ ih =>
      rw [List.map_cons, ← syscallToOCI_fromOCI first, ← ih]
      rfl

end SecurityProfiles
