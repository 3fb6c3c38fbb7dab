import SecurityProfiles.Selinux.Denied

namespace SecurityProfiles.Selinux

open List

section rules

/-- The rules are the entries of the profile, with each label and class once. -/
structure Lists (allow : Allow) (listed : List Rule) : Prop where
  once : (listed.map fun rule => (rule.ttype, rule.tclass)).Nodup
  entry : ∀ rule, rule ∈ listed ↔
    ∃ classes, allow.lookup rule.ttype = some classes ∧ classes.lookup rule.tclass = some rule.perms

theorem mem_rules {allow : Allow} {rule : Rule} : rule ∈ rules allow ↔
    ∃ classes, allow.lookup rule.ttype = some classes ∧ classes.lookup rule.tclass = some rule.perms := by
  simp only [rules, mem_flatMap, mem_map]
  constructor
  · rintro ⟨⟨ttype, classes⟩, isLabel, ⟨tclass, perms⟩, isClass, rfl⟩
    exact ⟨classes, SortedMap.mem_entries.mp isLabel, SortedMap.mem_entries.mp isClass⟩
  · rintro ⟨classes, isLabel, isClass⟩
    exact ⟨⟨rule.ttype, classes⟩, SortedMap.mem_entries.mpr isLabel, ⟨rule.tclass, rule.perms⟩,
      SortedMap.mem_entries.mpr isClass, rfl⟩

theorem lists_rules (allow : Allow) : Lists allow (rules allow) where
  entry _ := mem_rules
  once := by
    rw [rules, map_flatMap, nodup_flatMap]
    constructor
    · intro label _
      rw [map_map]
      refine List.Pairwise.map _ ?_ label.2.sorted
      intro first second less same
      exact less.ne (Prod.mk.inj same).2
    · refine allow.sorted.imp ?_
      intro first second less pair inFirst inSecond
      simp only [map_map, mem_map, Function.comp_apply] at inFirst inSecond
      obtain ⟨_, _, rfl⟩ := inFirst
      obtain ⟨_, _, same⟩ := inSecond
      exact less.ne (Prod.mk.inj same).1.symm

theorem nodup_uniquePerms (perms : PermissionSet) : (uniquePerms perms).Nodup :=
  (Text.nodup_compact_sort perms).map fun _ _ same => String.toList_injective same

end rules

section characters

variable {profile : Profile}

/-- Comments and quoted texts start with other characters. -/
def isPolicyChar (char : Char) : Bool := isIdentifierChar char || Sexp.isDelimiter char

/-- A text that no comment and no quoted text is part of. -/
def Unquoted (text : Str) : Prop := ∀ char ∈ text, isPolicyChar char = true

instance (text : Str) : Decidable (Unquoted text) :=
  decidable_of_iff (text.all isPolicyChar = true) all_eq_true

theorem Unquoted.append {first second : Str} (unquotedFirst : Unquoted first) (unquotedSecond : Unquoted second) :
    Unquoted (first ++ second) :=
  forall_mem_append.mpr ⟨unquotedFirst, unquotedSecond⟩

theorem Unquoted.flatten {parts : List Str} (each : ∀ part ∈ parts, Unquoted part) : Unquoted parts.flatten := by
  intro char member
  obtain ⟨part, isPart, isChar⟩ := mem_flatten.mp member
  exact each part isPart char isChar

theorem Unquoted.intercalate {words : List Str} (each : ∀ word ∈ words, Unquoted word) :
    Unquoted ([' '].intercalate words) := by
  induction words with
  | nil => exact forall_mem_nil _
  | cons word words ih =>
    obtain ⟨first, others⟩ := forall_mem_cons.mp each
    cases words with
    | nil =>
      rw [intercalate_singleton]
      exact first
    | cons next words =>
      rw [intercalate_cons_cons]
      have space : Unquoted [' '] := by decide
      exact (first.append space).append (ih others)

theorem unquoted_of_identifier {word : Str} (identifier : isIdentifier word = true) : Unquoted word := by
  simp only [isIdentifier, Bool.and_eq_true, all_eq_true] at identifier
  intro char member
  rw [isPolicyChar, identifier.2 char member, Bool.true_or]

theorem unquoted_inheritLine {inherit : Str} (identifier : isIdentifier inherit = true) :
    Unquoted (getCILInheritline inherit) := by
  have start : Unquoted "(blockinherit ".toList := by decide
  have stop : Unquoted ")\n".toList := by decide
  exact (start.append (unquoted_of_identifier identifier)).append stop

theorem Validated.unquoted {denied : DeniedOptions} {rule : Rule} (validated : Validated denied rule)
    (isName : isBlockName profile.name.toList = true) :
    Unquoted (getCILAllowLine profile rule.ttype rule.tclass rule.perms) := by
  have start : Unquoted "(allow process ".toList := by decide
  have middle : Unquoted " ( ".toList := by decide
  have stop : Unquoted " )))\n".toList := by decide
  have target : Unquoted (finalType profile rule.ttype) := by
    rw [finalType]
    split
    · rw [getPolicyUsage_eq isName]
      have process : Unquoted ".process".toList := by decide
      exact (unquoted_of_identifier (isIdentifier_blockName isName).1).append process
    · next other => exact unquoted_of_identifier (validated.ttype.resolve_left other)
  have perms : Unquoted ([' '].intercalate (uniquePerms rule.perms)) := by
    apply Unquoted.intercalate
    intro perm member
    obtain ⟨listed, isListed, rfl⟩ := mem_uniquePerms.mp member
    exact unquoted_of_identifier (validated.perms listed isListed)
  have tclass := unquoted_of_identifier validated.tclass
  exact (((((start.append target).append middle).append tclass).append middle).append perms).append stop

end characters

section meaning

variable {systemInherits objInherits : List Str} {profile : Profile} {options : Option Options} {text : Str}

/-- The text has only characters of names and delimiters. No part of it can be taken for a comment or a quoted
text. -/
theorem unquoted_text (ok : object2CIL systemInherits objInherits profile options = .ok text) : Unquoted text := by
  obtain ⟨isName, areInherits, validated, rfl⟩ := object2CIL_ok.mp ok
  have start : Unquoted "(block ".toList := by decide
  have newline : Unquoted "\n".toList := by decide
  have stop : Unquoted getCILEnd := by decide
  have name := unquoted_of_identifier (isIdentifier_blockName isName).1
  have inherited : Unquoted ((inheritedBlocks systemInherits objInherits).flatMap getCILInheritline) := by
    rw [flatMap_def]
    apply Unquoted.flatten
    rw [forall_mem_map]
    intro inherit member
    exact unquoted_inheritLine (isIdentifier_inheritedBlocks areInherits inherit member)
  have mode : Unquoted (if profile.permissive then typePermissive ++ "\n".toList else []) := by
    cases profile.permissive <;> decide
  have lines : Unquoted ((rules profile.allow).map fun rule =>
      getCILAllowLine profile rule.ttype rule.tclass rule.perms).flatten := by
    apply Unquoted.flatten
    rw [forall_mem_map]
    intro rule member
    exact (validated rule member).unquoted isName
  exact (((((start.append name).append newline).append inherited).append mode).append lines).append stop

/-- The statement allows what the entry of the profile does, and each permission is written once. -/
inductive Expresses (profile : Profile) (rule : Rule) : Sexp → Prop where
  | allow {words : List Str} (once : words.Nodup)
      (perm : ∀ word, word ∈ words ↔ ∃ perm ∈ rule.perms, perm.toList = word) :
      Expresses profile rule (.list [.word "allow".toList, .word "process".toList,
        .word (if rule.ttype = "@self" then profile.name.toList ++ ".process".toList else rule.ttype.toList),
        .list [.word rule.tclass.toList, .list (words.map .word)]])

theorem expresses_ruleTree (isName : isBlockName profile.name.toList = true) (rule : Rule) :
    Expresses profile rule (ruleTree profile rule) := by
  have target : finalType profile rule.ttype =
      if rule.ttype = "@self" then profile.name.toList ++ ".process".toList else rule.ttype.toList := by
    rw [finalType, getPolicyUsage_eq isName]
    rfl
  rw [ruleTree, target]
  exact .allow (nodup_uniquePerms rule.perms) fun _ => mem_uniquePerms

/-- The text of an accepted profile is one block with its name, that inherits, is permissive and allows what the
profile says, and nothing else. -/
theorem policy_means_profile (ok : object2CIL systemInherits objInherits profile options = .ok text) :
    ∃ listed allows, Lists profile.allow listed ∧ List.Forall₂ (Expresses profile) listed allows ∧
      Sexp.read text = some [.list ([.word "block".toList, .word profile.name.toList] ++
        ((if objInherits = [] then ["container".toList] else []) ++ systemInherits.filter
          (· ≠ "container".toList) ++
          objInherits).map (fun inherit => .list [.word "blockinherit".toList, .word inherit]) ++
        (if profile.permissive then [.list [.word "typepermissive".toList, .word "process".toList]] else []) ++
        allows)] ∧ Unquoted text := by
  obtain ⟨isName, -⟩ := object2CIL_ok.mp ok
  refine ⟨rules profile.allow, (rules profile.allow).map (ruleTree profile), lists_rules profile.allow, ?_, ?_,
    unquoted_text ok⟩
  · rw [List.forall₂_map_right_iff, List.forall₂_same]
    intro rule _
    exact expresses_ruleTree isName rule
  · rw [read_text ok]
    rfl

/-- A server that inherits from another profile. The permission to read is listed twice. -/
def serverProfile : Profile where
  name := "web"
  permissive := true
  allow := (SortedMap.empty.insert "container_file_t"
    (SortedMap.empty.insert "file" ["read", "open", "read"])).insert
    "@self" (SortedMap.empty.insert "tcp_socket" ["listen"])

theorem read_policy_meaning : ∃ text, object2CIL [] ["base".toList] serverProfile none = .ok text ∧
    ∃ listed allows, Lists serverProfile.allow listed ∧ List.Forall₂ (Expresses serverProfile) listed allows ∧
      Sexp.read text = some [.list ([.word "block".toList, .word "web".toList,
        .list [.word "blockinherit".toList, .word "base".toList],
        .list [.word "typepermissive".toList, .word "process".toList]] ++ allows)] ∧ Unquoted text := by
  obtain ⟨text, ok⟩ : ∃ text, object2CIL [] ["base".toList] serverProfile none = .ok text := ⟨_, rfl⟩
  exact ⟨text, ok, policy_means_profile ok⟩

end meaning

end SecurityProfiles.Selinux
