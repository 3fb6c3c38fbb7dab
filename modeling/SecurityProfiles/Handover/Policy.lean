import SecurityProfiles.Handover.Builders
import SecurityProfiles.Selinux.Meaning

namespace SecurityProfiles.Handover

open Selinux

variable {avcs : List Avc} {profile : Selinux.Profile} {rule : Selinux.Rule}

/-- The rules of a recorded profile are about the observed targets, with all that was observed for each. -/
theorem mem_rules_recorded (recorded : formatSelinuxProfile avcs = .ok profile.allow) : rule ∈ rules profile.allow ↔
    permsOf avcs rule.ttype rule.tclass ≠ [] ∧ rule.perms = permsOf avcs rule.ttype rule.tclass := by
  have listed : rule ∈ rules profile.allow ↔
      (profile.allow.classes rule.ttype).lookup rule.tclass = some rule.perms := by
    rw [mem_rules, Allow.classes]
    cases profile.allow.lookup rule.ttype with
    | none => simp [SortedMap.lookup, SortedMap.empty]
    | some classes => simp
  rw [listed, (formatSelinuxProfile_ok.mp recorded).2.perms, observed]
  split
  · next none' => simp [none']
  · next some' => simp [some', eq_comm]

theorem grants_plain (plain : ∀ perm ∈ rule.perms, operator perm.toList = none) {available : Set Str} {perm : Str} :
    (statementOf profile rule).Grants available perm ↔ perm ∈ available ∧
      ∃ listed ∈ rule.perms, listed.toList = perm := by
  have words : Plain (uniquePerms rule.perms) := by
    intro word member
    obtain ⟨listed, isListed, rfl⟩ := mem_uniquePerms.mp member
    exact plain listed isListed
  have meaning : (statementOf profile rule).Grants available perm ↔
      ∃ granted, expression available ((uniquePerms rule.perms).map .word) = some granted ∧
      perm ∈ granted := Iff.rfl
  rw [meaning, ← mem_uniquePerms]
  by_cases none : uniquePerms rule.perms = []
  · simp [none, expression]
  · simp [expression_plain words none, and_comm]

/-- The policy of a recorded profile grants what was observed, and nothing else. -/
theorem recorded_policy_grants {systemInherits objInherits : List Str} {options : Option Options} {text : Str}
    (recorded : formatSelinuxProfile avcs = .ok profile.allow)
    (plain : ∀ avc ∈ avcs, operator avc.perm.toList = none)
    (translated : object2CIL systemInherits objInherits profile options = .ok text) (available : Set Str)
    (target tclass perm : Str) :
    (∃ statement ∈ allowStatements text, statement.target = target ∧ statement.tclass = tclass ∧
      statement.Grants available perm) ↔
    perm ∈ available ∧ ∃ avc ∈ avcs, finalType profile avc.label = target ∧ avc.tclass.toList = tclass ∧
      avc.perm.toList = perm := by
  have isObserved : ∀ rule ∈ rules profile.allow, ∀ perm, perm ∈ rule.perms ↔
      ∃ avc ∈ avcs, avc.tclass = rule.tclass ∧ avc.label = rule.ttype ∧ avc.perm = perm := by
    intro rule isRule perm
    rw [((mem_rules_recorded recorded).mp isRule).2, mem_permsOf]
  have grants : ∀ rule ∈ rules profile.allow, (statementOf profile rule).Grants available perm ↔
      perm ∈ available ∧ ∃ listed ∈ rule.perms, listed.toList = perm := by
    intro rule isRule
    refine grants_plain fun perm isListed => ?_
    obtain ⟨avc, isAvc, -, -, rfl⟩ := (isObserved rule isRule perm).mp isListed
    exact plain avc isAvc
  rw [allowStatements_text translated]
  constructor
  · rintro ⟨_, inPolicy, rfl, rfl, granted⟩
    obtain ⟨rule, isRule, rfl⟩ := List.mem_map.mp inPolicy
    obtain ⟨has, listed, isListed, rfl⟩ := (grants rule isRule).mp granted
    obtain ⟨avc, isAvc, sameClass, sameLabel, rfl⟩ := (isObserved rule isRule listed).mp isListed
    exact ⟨has, avc, isAvc, by rw [sameLabel]; rfl, by rw [sameClass]; rfl, rfl⟩
  · rintro ⟨has, avc, isAvc, rfl, rfl, rfl⟩
    have isPerm : avc.perm ∈ permsOf avcs avc.label avc.tclass := mem_permsOf.mpr ⟨avc, isAvc, rfl, rfl, rfl⟩
    have isRule : ⟨avc.label, avc.tclass, permsOf avcs avc.label avc.tclass⟩ ∈ rules profile.allow :=
      (mem_rules_recorded recorded).mpr ⟨List.ne_nil_of_mem isPerm, rfl⟩
    exact ⟨_, List.mem_map_of_mem isRule, rfl, rfl, (grants _ isRule).mpr ⟨has, avc.perm, isPerm, rfl⟩⟩

def readsFile : Avc where
  perm := "read"
  tclass := "file"
  tcontext := "system_u:object_r:container_file_t:s0"
  plainClass := by decide
  plainType ctxType isType := by
    cases isType
    decide

theorem read_file_granted : ∃ text, object2CIL [] [] (fileProfile ["read"]) none = .ok text ∧
    ∃ statement ∈ allowStatements text, statement.target = "container_file_t".toList ∧
      statement.tclass = "file".toList ∧
      statement.Grants {"read".toList} "read".toList := by
  obtain ⟨text, translated⟩ := @object2CIL_fileProfile "read" (by decide) (by decide)
  have recorded : formatSelinuxProfile [readsFile] = .ok (fileProfile ["read"]).allow := by decide
  exact ⟨text, translated, (recorded_policy_grants recorded (by decide) translated _ _ _ _).mpr
    ⟨rfl, readsFile, by simp, by decide, rfl, rfl⟩⟩

end SecurityProfiles.Handover
