import SecurityProfiles.Allowing.AllowList

namespace SecurityProfiles.Allowing

open List

def countSyscalls (names : List String) : SortedMap String Nat :=
  names.foldl (fun diff name => diff.insert name ((diff.lookup name).getD 0 + 1)) .empty

/-- Take the syscalls off the counts. One that is not counted, or one that is left over, is a change. -/
def takeSyscalls (diff : SortedMap String Nat) : List String → Bool
  | [] => diff.entries ≠ []
  | name :: rest =>
    match diff.lookup name with
    | none => true
    | some count => takeSyscalls (if count - 1 = 0 then diff.erase name else diff.insert name (count - 1)) rest

/-- `AllowListChanged` ignores the order of the entries. -/
def allowListChanged (old new : SPODSecurityConfig) : Bool :=
  if new.allowedSeccompActions.toFinset ≠ old.allowedSeccompActions.toFinset then true
  else if new.allowedSyscalls.length ≠ old.allowedSyscalls.length then true
  else takeSyscalls (countSyscalls new.allowedSyscalls) old.allowedSyscalls

/-- The map has how often each name is listed, and no name that is not. -/
def Counts (diff : SortedMap String Nat) (names : List String) : Prop :=
  ∀ name, diff.lookup name = if names.count name = 0 then none else some (names.count name)

theorem counts_foldl (names : List String) {diff : SortedMap String Nat} {before : List String}
    (counts : Counts diff before) :
    Counts (names.foldl (fun diff name => diff.insert name ((diff.lookup name).getD 0 + 1)) diff)
      (before ++ names) := by
  induction names generalizing diff before with
  | nil => rwa [append_nil]
  | cons name rest ih =>
    have next : Counts (diff.insert name ((diff.lookup name).getD 0 + 1)) (before ++ [name]) := by
      intro other
      have own : (diff.lookup name).getD 0 = before.count name := by
        rw [counts]
        split <;> simp_all
      rw [SortedMap.lookup_insert, count_append, own]
      by_cases same : other = name
      · simp [same]
      · have absent : [name].count other = 0 := count_eq_zero_of_not_mem (by simpa using same)
        rw [if_neg same, counts other, absent, Nat.add_zero]
    simpa using ih next

section

variable {diff : SortedMap String Nat} {names : List String} (counts : Counts diff names)
include counts

theorem counts_take {name : String} {count : Nat} (found : diff.lookup name = some count) :
    name ∈ names ∧ Counts (if count - 1 = 0 then diff.erase name else diff.insert name (count - 1))
      (names.erase name) := by
  have own := counts name
  rw [found] at own
  split at own
  · cases own
  · next listed =>
    have isCount : count = names.count name := Option.some.inj own
    refine ⟨count_pos_iff.mp (Nat.pos_of_ne_zero listed), fun other => ?_⟩
    by_cases same : other = name
    · rw [same, count_erase_self, ← isCount]
      split
      · exact SortedMap.lookup_erase_self _ _
      · exact SortedMap.lookup_insert_self _ _ _
    · rw [count_erase_of_ne same, ← counts other]
      split
      · exact SortedMap.lookup_erase_ne _ same
      · exact SortedMap.lookup_insert_ne _ _ same

theorem takeSyscalls_eq_false (others : List String) : takeSyscalls diff others = false ↔ others.Perm names := by
  induction others generalizing diff names with
  | nil =>
    rw [takeSyscalls, nil_perm]
    simp only [ne_eq, decide_not, Bool.not_eq_false', decide_eq_true_eq]
    constructor
    · intro empty
      refine eq_nil_iff_forall_not_mem.mpr fun name member => ?_
      have own := counts name
      rw [if_neg (count_pos_iff.mpr member).ne'] at own
      have inEntries := SortedMap.mem_entries.mpr own
      rw [empty] at inEntries
      cases inEntries
    · rintro rfl
      refine eq_nil_iff_forall_not_mem.mpr fun entry member => ?_
      have own := counts entry.1
      rw [SortedMap.mem_entries.mp member] at own
      cases own
  | cons name rest ih =>
    rw [takeSyscalls, cons_perm_iff_perm_erase]
    cases found : diff.lookup name with
    | none =>
      have absent : name ∉ names := by
        intro member
        have own := counts name
        rw [found, if_neg (count_pos_iff.mpr member).ne'] at own
        cases own
      simp [absent]
    | some count =>
      obtain ⟨member, next⟩ := counts_take counts found
      simp only [ih next, member, true_and]

end

theorem allowListChanged_eq_false {old new : SPODSecurityConfig} : allowListChanged old new = false ↔
    (∀ action, action ∈ old.allowedSeccompActions ↔ action ∈ new.allowedSeccompActions) ∧
      old.allowedSyscalls.Perm new.allowedSyscalls := by
  have counts : Counts (countSyscalls new.allowedSyscalls) new.allowedSyscalls :=
    @counts_foldl new.allowedSyscalls .empty [] fun _ => rfl
  have actions : new.allowedSeccompActions.toFinset = old.allowedSeccompActions.toFinset ↔
      ∀ action, action ∈ old.allowedSeccompActions ↔ action ∈ new.allowedSeccompActions := by
    simp only [Finset.ext_iff, mem_toFinset]
    exact forall_congr' fun action => Iff.comm
  unfold allowListChanged
  rw [← actions]
  by_cases same : new.allowedSeccompActions.toFinset = old.allowedSeccompActions.toFinset
  · rw [if_neg (not_not.mpr same), and_iff_right same]
    split
    · next longer => exact ⟨fun changed => (nomatch changed), fun perm => absurd perm.length_eq.symm longer⟩
    · exact takeSyscalls_eq_false counts _
  · rw [if_pos same]
    exact ⟨fun changed => (nomatch changed), fun both => absurd both.1 same⟩

theorem checkedActions_ok {actions : List Action} {checked : List Action} : checkedActions actions = .ok checked ↔
    (∀ action ∈ actions, action ∈ checkableActions) ∧
      checked = if actions = [] then checkableActions else actions := by
  unfold checkedActions
  split
  · next none => simp [none, eq_comm]
  · cases found : actions.find? (· ∉ checkableActions) with
    | none =>
      have all : ∀ action ∈ actions, action ∈ checkableActions := by simpa using found
      rw [and_iff_right all]
      simp [eq_comm]
    | some action =>
      have forbidden := find?_some found
      have member := mem_of_find?_eq_some found
      simp only [reduceCtorEq, false_iff, not_and]
      exact fun all => absurd (all action member) (by simpa using forbidden)

theorem allowAction_ok {profile : SeccompProfile} {allowedSyscalls : List String} {action : Action} :
    allowAction profile allowedSyscalls action = .ok () ↔
      (∀ call ∈ actionCalls profile action, call ∈ allowedSyscalls) ∧
      (profile.defaultAction = action → allowedSyscalls = []) := by
  unfold allowAction
  cases found : (actionCalls profile action).find? (· ∉ allowedSyscalls) with
  | none =>
    have all : ∀ call ∈ actionCalls profile action, call ∈ allowedSyscalls := by simpa using found
    rw [and_iff_right all]
    by_cases isDefault : profile.defaultAction = action <;> by_cases empty : allowedSyscalls = [] <;>
      simp [isDefault, empty]
  | some call =>
    have forbidden : call ∉ allowedSyscalls := by simpa using find?_some found
    simp only [reduceCtorEq, false_iff, not_and]
    exact fun all => absurd (all call (mem_of_find?_eq_some found)) forbidden

/-- What a profile is accepted by: the order and the repetition of the entries do not matter. -/
theorem allowProfile_ok {profile : SeccompProfile} {config : SPODSecurityConfig} :
    allowProfile profile config = .ok () ↔
    (∀ action ∈ config.allowedSeccompActions, action ∈ checkableActions) ∧
    ∀ action ∈ (if config.allowedSeccompActions = [] then checkableActions else config.allowedSeccompActions),
      (∀ call ∈ actionCalls profile action, call ∈ config.allowedSyscalls) ∧
        (profile.defaultAction = action → config.allowedSyscalls = []) := by
  rw [allowProfile, Fallible.bind_ok]
  simp only [checkedActions_ok, Fallible.forM_ok, allowAction_ok]
  constructor
  · rintro ⟨_, ⟨checkable, rfl⟩, each⟩
    exact ⟨checkable, each⟩
  · rintro ⟨checkable, each⟩
    exact ⟨_, ⟨checkable, rfl⟩, each⟩

theorem allowProfile_congr {old new : SPODSecurityConfig}
    (actions : ∀ action, action ∈ old.allowedSeccompActions ↔ action ∈ new.allowedSeccompActions)
    (syscalls : old.allowedSyscalls.Perm new.allowedSyscalls) (profile : SeccompProfile) :
    allowProfile profile old = .ok () ↔ allowProfile profile new = .ok () := by
  have none : old.allowedSeccompActions = [] ↔ new.allowedSeccompActions = [] := by
    simp only [eq_nil_iff_forall_not_mem, actions]
  have checked : ∀ action,
      action ∈ (if old.allowedSeccompActions = [] then checkableActions else old.allowedSeccompActions) ↔
        action ∈ (if new.allowedSeccompActions = [] then checkableActions else new.allowedSeccompActions) := by
    intro action
    by_cases empty : new.allowedSeccompActions = []
    · rw [if_pos (none.mpr empty), if_pos empty]
    · rw [if_neg (mt none.mp empty), if_neg empty, actions]
  have noSyscalls : old.allowedSyscalls = [] ↔ new.allowedSyscalls = [] := by
    simp only [eq_nil_iff_forall_not_mem, syscalls.mem_iff]
  simp only [allowProfile_ok, checked, actions, syscalls.mem_iff, noSyscalls]

/-- A change is reported unless the actions are the same, and the syscalls equally often the same. Then the same
profiles are allowed. -/
theorem allowListChanged_exact (old new : SPODSecurityConfig) :
    (allowListChanged old new = false ↔
      (∀ action, action ∈ old.allowedSeccompActions ↔ action ∈ new.allowedSeccompActions) ∧
        old.allowedSyscalls.Perm new.allowedSyscalls) ∧
    allowListChanged old new = allowListChanged new old ∧
    (allowListChanged old new = false → ∀ profile,
      (allowProfile profile old = .ok () ∧ allowProfile profile new = .ok ()) ∨
        ∃ error error', allowProfile profile old = .error error ∧ allowProfile profile new = .error error') := by
  refine ⟨allowListChanged_eq_false, ?_, fun unchanged profile => ?_⟩
  · have symmetric : allowListChanged old new = false ↔ allowListChanged new old = false := by
      rw [allowListChanged_eq_false, allowListChanged_eq_false, perm_comm]
      exact and_congr_left' (forall_congr' fun action => Iff.comm)
    cases isOld : allowListChanged old new with
    | false => exact (symmetric.mp isOld).symm
    | true => exact (Bool.eq_true_of_not_eq_false fun isNew => nomatch isOld.symm.trans (symmetric.mpr isNew)).symm
  · obtain ⟨actions, syscalls⟩ := allowListChanged_eq_false.mp unchanged
    have same := allowProfile_congr actions syscalls profile
    cases isOld : allowProfile profile old with
    | ok _ => exact Or.inl ⟨rfl, same.mp isOld⟩
    | error error =>
      cases isNew : allowProfile profile new with
      | ok _ => exact nomatch isOld.symm.trans (same.mpr isNew)
      | error error' => exact Or.inr ⟨error, error', rfl, rfl⟩

end SecurityProfiles.Allowing
