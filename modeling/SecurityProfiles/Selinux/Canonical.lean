import SecurityProfiles.Selinux.Meaning

namespace SecurityProfiles.Selinux

open List

section accepted

variable {systemInherits objInherits : List Str} {profile : Profile} {options : Option Options}

/-- A value is denied explicitly, or by default and not allowed explicitly. -/
def Denies (builtin allowed denied : List String) (value : String) : Prop :=
  value ∈ denied ∨ value ∈ builtin ∧ value ∉ allowed

/-- A rule that a profile may have with the options. -/
structure Permitted (options : Option Options) (ttype tclass : String) (perms : PermissionSet) : Prop where
  typeWritable : ttype = allowSelf ∨ isIdentifier ttype.toList = true
  classWritable : isIdentifier tclass.toList = true
  permsWritable : ∀ perm ∈ perms, isIdentifier perm.toList = true
  typeKept : ¬ Denies deniedDefaults.deniedTypes (options.elim [] (·.allowedTypes))
    (options.elim [] (·.deniedTypes)) ttype
  classKept :
    ¬ Denies deniedDefaults.deniedClasses (options.elim [] (·.allowedClasses))
      (options.elim [] (·.deniedClasses)) tclass
  permsKept : ∀ perm ∈ perms, ¬ Denies deniedDefaults.deniedPermissions (options.elim [] (·.allowedPermissions))
    (options.elim [] (·.deniedPermissions)) perm

theorem mem_adjustDenied {builtin allowed denied : List String} {value : String} :
    value ∈ adjustDenied builtin allowed denied ↔ Denies builtin allowed denied value := by
  simp only [adjustDenied, Denies, mem_append, mem_filter, decide_eq_true_eq]
  exact or_comm

theorem deniedOptionsFromOpts_eq (options : Option Options) : deniedOptionsFromOpts options =
    { deniedTypes :=
        adjustDenied deniedDefaults.deniedTypes (options.elim [] (·.allowedTypes)) (options.elim [] (·.deniedTypes))
      deniedClasses :=
        adjustDenied deniedDefaults.deniedClasses (options.elim [] (·.allowedClasses))
          (options.elim [] (·.deniedClasses))
      deniedPermissions := adjustDenied deniedDefaults.deniedPermissions (options.elim [] (·.allowedPermissions))
        (options.elim [] (·.deniedPermissions)) } := by
  cases options with
  | none => decide
  | some options => rfl

theorem validated_iff_permitted {rule : Rule} :
    Validated (deniedOptionsFromOpts options) rule ↔ Permitted options rule.ttype rule.tclass rule.perms := by
  rw [deniedOptionsFromOpts_eq]
  constructor
  · intro validated
    exact ⟨validated.ttype, validated.tclass, validated.perms, mem_adjustDenied.not.mp validated.typeKept,
      mem_adjustDenied.not.mp validated.classKept,
      fun perm member => mem_adjustDenied.not.mp (validated.permsKept perm member)⟩
  · intro permitted
    exact ⟨permitted.typeWritable, permitted.classWritable, permitted.permsWritable,
      mem_adjustDenied.not.mpr permitted.typeKept, mem_adjustDenied.not.mpr permitted.classKept,
      fun perm member => mem_adjustDenied.not.mpr (permitted.permsKept perm member)⟩

/-- Exactly the permitted profiles are translated: those with names that can be written, and with no rule for a
type, class or permission that is denied by default or by the options. -/
theorem translated_iff_permitted : (∃ text, object2CIL systemInherits objInherits profile options = .ok text) ↔
    isBlockName profile.name.toList = true ∧
      (∀ inherit ∈ systemInherits ++ objInherits, isIdentifier inherit = true) ∧
      ∀ ttype tclass classes perms, profile.allow.lookup ttype = some classes → classes.lookup tclass = some perms →
        Permitted options ttype tclass perms := by
  constructor
  · rintro ⟨text, ok⟩
    obtain ⟨isName, areInherits, validated, -⟩ := object2CIL_ok.mp ok
    refine ⟨isName, areInherits, fun ttype tclass classes perms isLabel isClass => ?_⟩
    have listed : (⟨ttype, tclass, perms⟩ : Rule) ∈ rules profile.allow := mem_rules.mpr ⟨classes, isLabel, isClass⟩
    exact validated_iff_permitted.mp (validated _ listed)
  · rintro ⟨isName, areInherits, permitted⟩
    refine ⟨_, object2CIL_ok.mpr ⟨isName, areInherits, fun rule member => ?_, rfl⟩⟩
    obtain ⟨classes, isLabel, isClass⟩ := mem_rules.mp member
    exact validated_iff_permitted.mpr (permitted rule.ttype rule.tclass classes rule.perms isLabel isClass)

end accepted

section iteration

/-- The orders in which the maps of the allow rules give their keys. -/
structure Iteration (allow : Allow) where
  labels : List String
  isLabels : labels.Perm (allow.entries.map Sigma.fst)
  classes : String → List String
  isClasses : ∀ label permissions, allow.lookup label = some permissions →
    (classes label).Perm (permissions.entries.map Sigma.fst)

def sortLabelKeys (keys : List String) : List String := Text.sort keys

def sortObjectClassKeys (keys : List String) : List String := Text.sort keys

/-- The rules as the two loops of the translator come by them. -/
def iteratedRules {allow : Allow} (iteration : Iteration allow) : List Rule :=
  (sortLabelKeys iteration.labels).flatMap fun ttype =>
    (sortObjectClassKeys (iteration.classes ttype)).map fun tclass =>
      ⟨ttype, tclass, (allow.classes ttype).perms tclass⟩

/-- `object2CIL` with the orders in which the maps happen to give their keys. -/
def object2CILIn (systemInherits objInherits : List Str) (profile : Profile) (options : Option Options)
    (iteration : Iteration profile.allow) : Except CilError Str := do
  Fallible.require (isBlockName profile.name.toList) (.profileName profile.name)
  (systemInherits ++ objInherits).forM validateInherited
  let allowLines ← (iteratedRules iteration).mapM (ruleLine (deniedOptionsFromOpts options) profile)
  pure (policyText profile (inheritedBlocks systemInherits objInherits) allowLines)

theorem sort_keys {V : Type} {map : SortedMap String V} {keys : List String}
    (perm : keys.Perm (map.entries.map Sigma.fst)) : Text.sort keys = map.entries.map Sigma.fst := by
  have sorted : (map.entries.map Sigma.fst).Pairwise (· < ·) := pairwise_map.mpr map.sorted
  have nodup : keys.Nodup := perm.nodup_iff.mpr (sorted.imp ne_of_lt)
  refine Text.eq_of_pairwise_lt (Text.pairwise_sort nodup) sorted fun key => ?_
  rw [Text.mem_sort, perm.mem_iff]

theorem iteratedRules_eq {allow : Allow} (iteration : Iteration allow) : iteratedRules iteration = rules allow := by
  unfold iteratedRules rules sortLabelKeys sortObjectClassKeys
  rw [sort_keys iteration.isLabels, flatMap_map]
  refine flatMap_congr fun label member => ?_
  have isLabel : allow.lookup label.1 = some label.2 := SortedMap.mem_entries.mp member
  rw [sort_keys (iteration.isClasses label.1 label.2 isLabel), map_map]
  refine map_congr_left fun objClass isEntry => ?_
  have isClass : label.2.lookup objClass.1 = some objClass.2 := SortedMap.mem_entries.mp isEntry
  simp [Allow.classes, ObjectClassPermissions.perms, isLabel, isClass]

theorem object2CILIn_eq (systemInherits objInherits : List Str) (profile : Profile) (options : Option Options)
    (iteration : Iteration profile.allow) :
    object2CILIn systemInherits objInherits profile options iteration =
      object2CIL systemInherits objInherits profile options := by
  rw [object2CILIn, iteratedRules_eq]
  rfl

end iteration

section canonical

/-- Rules that allow the same, with the permissions in any order and any number of times. -/
def SameAllow (first second : Allow) : Prop :=
  ∀ label, Option.Rel (fun firstClasses secondClasses : ObjectClassPermissions =>
    ∀ objClass, Option.Rel (fun firstPerms secondPerms : PermissionSet => ∀ perm, perm ∈ firstPerms ↔
      perm ∈ secondPerms)
      (firstClasses.lookup objClass) (secondClasses.lookup objClass)) (first.lookup label) (second.lookup label)

structure SameRule (first second : Rule) : Prop where
  ttype : first.ttype = second.ttype
  tclass : first.tclass = second.tclass
  perms : ∀ perm, perm ∈ first.perms ↔ perm ∈ second.perms

theorem sameRules_rules {first second : Allow} (same : SameAllow first second) :
    List.Forall₂ SameRule (rules first) (rules second) := by
  unfold rules
  refine rel_flatMap (SortedMap.forall₂_entries same) ?_
  rintro ⟨label, firstClasses⟩ ⟨_, secondClasses⟩ ⟨rfl, classes⟩
  rw [List.forall₂_map_left_iff, List.forall₂_map_right_iff]
  refine (SortedMap.forall₂_entries classes).imp ?_
  rintro ⟨objClass, firstPerms⟩ ⟨_, secondPerms⟩ ⟨rfl, perms⟩
  exact ⟨rfl, rfl, perms⟩

theorem SameRule.validated {denied : DeniedOptions} {first second : Rule} (same : SameRule first second) :
    Validated denied first ↔ Validated denied second := by
  have one : ∀ {first second : Rule}, SameRule first second → Validated denied first → Validated denied second := by
    intro first second same validated
    exact ⟨same.ttype ▸ validated.ttype, same.tclass ▸ validated.tclass,
      fun perm member => validated.perms perm ((same.perms perm).mpr member), same.ttype ▸ validated.typeKept,
      same.tclass ▸ validated.classKept, fun perm member => validated.permsKept perm ((same.perms perm).mpr member)⟩
  exact ⟨one same, one ⟨same.ttype.symm, same.tclass.symm, fun perm => (same.perms perm).symm⟩⟩

theorem SameRule.allowLine {first second : Rule} (same : SameRule first second) {profile other : Profile}
    (name : profile.name = other.name) : getCILAllowLine profile first.ttype first.tclass first.perms =
      getCILAllowLine other second.ttype second.tclass second.perms := by
  unfold getCILAllowLine uniquePerms finalType getPolicyUsage getPolicyName
  rw [same.ttype, same.tclass, Text.compact_sort_congr same.perms, name]

/-- Profiles that allow the same give the same policy, in whatever order their maps are read, or none. -/
theorem translation_canonical (systemInherits objInherits : List Str) (options : Option Options)
    {first second : Profile} (name : first.name = second.name) (permissive : first.permissive = second.permissive)
    (same : SameAllow first.allow second.allow) (firstIteration : Iteration first.allow)
    (secondIteration : Iteration second.allow) :
    (∃ text, object2CILIn systemInherits objInherits first options firstIteration = .ok text ∧
      object2CILIn systemInherits objInherits second options secondIteration = .ok text) ∨
    ((∃ error, object2CILIn systemInherits objInherits first options firstIteration = .error error) ∧
      ∃ error, object2CILIn systemInherits objInherits second options secondIteration = .error error) := by
  rw [object2CILIn_eq, object2CILIn_eq]
  have related := sameRules_rules same
  have lines : ((rules first.allow).map fun rule => getCILAllowLine first rule.ttype rule.tclass rule.perms) =
      (rules second.allow).map fun rule => getCILAllowLine second rule.ttype rule.tclass rule.perms := by
    rw [← List.forall₂_eq_eq_eq, List.forall₂_map_left_iff, List.forall₂_map_right_iff]
    exact related.imp fun _ _ sameRule => sameRule.allowLine name
  have transfer : ∀ text, object2CIL systemInherits objInherits first options = .ok text ↔
      object2CIL systemInherits objInherits second options = .ok text := by
    intro text
    have header : policyText first = policyText second := by
      unfold policyText getCILStart
      rw [name, permissive]
    have validated : (∀ rule ∈ rules first.allow, Validated (deniedOptionsFromOpts options) rule) ↔
        ∀ rule ∈ rules second.allow, Validated (deniedOptionsFromOpts options) rule := by
      obtain ⟨inSecond, inFirst⟩ := Fallible.forall₂_mem related
      constructor
      · intro each rule member
        obtain ⟨partner, isRule, sameRule⟩ := inFirst rule member
        exact sameRule.validated.mp (each partner isRule)
      · intro each rule member
        obtain ⟨partner, isRule, sameRule⟩ := inSecond rule member
        exact sameRule.validated.mpr (each partner isRule)
    rw [object2CIL_ok, object2CIL_ok, header, lines, validated, name]
  cases ok : object2CIL systemInherits objInherits first options with
  | ok text => exact Or.inl ⟨text, rfl, (transfer text).mp ok⟩
  | error error =>
    refine Or.inr ⟨⟨error, rfl⟩, ?_⟩
    cases other : object2CIL systemInherits objInherits second options with
    | error error => exact ⟨error, rfl⟩
    | ok text =>
      rw [(transfer text).mpr other] at ok
      cases ok

def fileIteration (perms : PermissionSet) : Iteration (fileProfile perms).allow where
  labels := (fileProfile perms).allow.entries.map Sigma.fst
  isLabels := .refl _
  classes label := ((fileProfile perms).allow.classes label).entries.map Sigma.fst
  isClasses label permissions isLabel := by simp [Allow.classes, isLabel]

theorem sameAllow_fileProfile {first second : PermissionSet} (same : ∀ perm, perm ∈ first ↔ perm ∈ second) :
    SameAllow (fileProfile first).allow (fileProfile second).allow := by
  intro label
  rw [fileProfile, fileProfile, SortedMap.lookup_insert, SortedMap.lookup_insert]
  split
  · refine .some fun objClass => ?_
    rw [SortedMap.lookup_insert, SortedMap.lookup_insert]
    split
    · exact .some same
    · exact .none
  · exact .none

/-- The permissions of a rule in another order, one of them twice, make no difference. -/
theorem reordered_perms_same :
    (∃ text, object2CILIn [] [] (fileProfile ["read", "open"]) none (fileIteration _) = .ok text ∧
      object2CILIn [] [] (fileProfile ["open", "read", "open"]) none (fileIteration _) = .ok text) ∨
    ((∃ error, object2CILIn [] [] (fileProfile ["read", "open"]) none (fileIteration _) = .error error) ∧
      ∃ error, object2CILIn [] [] (fileProfile ["open", "read", "open"]) none (fileIteration _) = .error error) :=
  @translation_canonical [] [] none (fileProfile ["read", "open"]) (fileProfile ["open", "read", "open"]) rfl rfl
    (sameAllow_fileProfile (by simp [or_comm])) (fileIteration _) (fileIteration _)

end canonical

end SecurityProfiles.Selinux
