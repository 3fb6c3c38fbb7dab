import SecurityProfiles.Selinux.Reading

namespace SecurityProfiles.Selinux

open List

section text

variable {profile : Profile}

theorem isDelimiter_identifierChar {char : Char} (isChar : isIdentifierChar char = true) :
    Sexp.isDelimiter char = false := by
  have small : ∀ code < 128, isIdentifierChar (Char.ofNat code) = true →
      Sexp.isDelimiter (Char.ofNat code) = false := by
    decide
  have ascii : char.toNat < 128 := by
    delta isIdentifierChar Char.isAlphanum Char.isAlpha Char.isUpper Char.isLower Char.isDigit at isChar
    simp only [Bool.or_eq_true, Bool.and_eq_true, decide_eq_true_eq, ge_iff_le, UInt32.le_iff_toNat_le] at isChar
    rcases isChar with ((((⟨_, high⟩ | ⟨_, high⟩) | ⟨_, high⟩) | rfl) | rfl) | rfl
    all_goals
      first
      | decide
      | exact lt_of_le_of_lt high (by decide)
  have same : Char.ofNat char.toNat = char := Char.ofNat_toNat char
  rw [← same] at isChar ⊢
  exact small char.toNat ascii isChar

theorem isWord_of_identifier {word : Str} (identifier : isIdentifier word = true) : Sexp.IsWord word := by
  simp only [isIdentifier, Bool.and_eq_true, decide_eq_true_eq, all_eq_true] at identifier
  exact ⟨identifier.1, fun char member => isDelimiter_identifierChar (identifier.2 char member)⟩

theorem isIdentifier_blockName {name : Str} (isName : isBlockName name = true) :
    isIdentifier name = true ∧ '/' ∉ name := by
  cases name with
  | nil => cases isName
  | cons first rest =>
    simp only [isBlockName, Bool.and_eq_true, all_eq_true] at isName
    obtain ⟨isAlpha, others⟩ := isName
    have each : ∀ char ∈ first :: rest, char.isAlphanum = true ∨ char = '-' ∨ char = '_' := by
      refine forall_mem_cons.mpr ⟨Or.inl ?_, fun char member => ?_⟩
      · simp [Char.isAlphanum, isAlpha]
      · simpa [or_assoc] using others char member
    constructor
    · simp only [isIdentifier, Bool.and_eq_true, decide_eq_true_eq, all_eq_true]
      refine ⟨cons_ne_nil _ _, fun char member => ?_⟩
      rcases each char member with alphanum | dash | line
      · simp [isIdentifierChar, alphanum]
      · simp [isIdentifierChar, dash]
      · simp [isIdentifierChar, line]
    · intro member
      exact absurd (each '/' member) (by decide)

theorem getPolicyUsage_eq (isName : isBlockName profile.name.toList = true) :
    getPolicyUsage profile = profile.name.toList ++ ".process".toList := by
  obtain ⟨identifier, noSlash⟩ := isIdentifier_blockName isName
  rw [getPolicyUsage, getPolicyName, FilePath.base_of_notMem (isWord_of_identifier identifier).named noSlash]

def inheritTree (inherit : Str) : Sexp := .list [.word "blockinherit".toList, .word inherit]

def permissiveTree : Sexp := .list [.word "typepermissive".toList, .word "process".toList]

def ruleTree (profile : Profile) (rule : Rule) : Sexp :=
  .list [.word "allow".toList, .word "process".toList, .word (finalType profile rule.ttype),
    .list [.word rule.tclass.toList, .list ((uniquePerms rule.perms).map .word)]]

def policyTree (profile : Profile) (inherits : List Str) : Sexp :=
  .list (.word "block".toList :: .word profile.name.toList :: (inherits.map inheritTree ++
    (if profile.permissive then [permissiveTree] else []) ++ (rules profile.allow).map (ruleTree profile)))

theorem spells_inheritLine {inherit : Str} (isWord : Sexp.IsWord inherit) :
    Sexp.Spells (getCILInheritline inherit) (inheritTree inherit).tokens := by
  have start : Sexp.Spells "(blockinherit ".toList [.open, .word "blockinherit".toList] := by
    constructor <;> decide
  have stop : Sexp.Spells ")\n".toList [.close] := by
    constructor <;> decide
  have spelled : (inheritTree inherit).tokens = [.open, .word "blockinherit".toList] ++
      .word inherit :: [.close] := by
    simp [inheritTree, Sexp.tokens]
  rw [spelled]
  exact start.word isWord stop

theorem spells_permissiveLine : Sexp.Spells (typePermissive ++ "\n".toList) permissiveTree.tokens := by
  have spelled : permissiveTree.tokens =
      [.open, .word "typepermissive".toList, .word "process".toList, .close] := by
    simp [permissiveTree, Sexp.tokens]
  rw [spelled]
  constructor <;> decide

/-- The words of a rule can be told apart in the text. -/
structure Legible (profile : Profile) (rule : Rule) : Prop where
  ttype : Sexp.IsWord (finalType profile rule.ttype)
  tclass : Sexp.IsWord rule.tclass.toList
  perms : ∀ perm ∈ uniquePerms rule.perms, Sexp.IsWord perm

theorem spells_allowLine {rule : Rule} (legible : Legible profile rule) :
    Sexp.Spells (getCILAllowLine profile rule.ttype rule.tclass rule.perms) (ruleTree profile rule).tokens := by
  have start : Sexp.Spells "(allow process ".toList [.open, .word "allow".toList, .word "process".toList] := by
    constructor <;> decide
  have middle : Sexp.Spells " ( ".toList [.open] := by
    constructor <;> decide
  have stop : Sexp.Spells " )))\n".toList [.close, .close, .close] := by
    constructor <;> decide
  have words : ((uniquePerms rule.perms).map Sexp.word).flatMap Sexp.tokens =
      (uniquePerms rule.perms).map Sexp.Token.word := by
    rw [flatMap_map, map_eq_flatMap]
    simp only [Sexp.tokens]
  have spelled : (ruleTree profile rule).tokens =
      ([.open, .word "allow".toList, .word "process".toList] ++ .word (finalType profile rule.ttype) :: [.open] ++
        .word rule.tclass.toList :: [.open]) ++
        ((uniquePerms rule.perms).map .word ++ [.close, .close, .close]) := by
    simp [ruleTree, Sexp.tokens, words]
  rw [spelled]
  exact ((start.word legible.ttype middle).word legible.tclass middle).words legible.perms stop

/-- The text of a policy is read back as the policy, since its names and permissions are words of their own. -/
theorem read_policyText {inherits : List Str} (isName : Sexp.IsWord profile.name.toList)
    (areInherits : ∀ inherit ∈ inherits, Sexp.IsWord inherit)
    (legible : ∀ rule ∈ rules profile.allow, Legible profile rule) :
    Sexp.read (policyText profile inherits ((rules profile.allow).map fun rule =>
      getCILAllowLine profile rule.ttype rule.tclass rule.perms)) = some [policyTree profile inherits] := by
  have start : Sexp.Spells "(block ".toList [.open, .word "block".toList] := by
    constructor <;> decide
  have newline : Sexp.Spells "\n".toList [] := by
    constructor <;> decide
  have ending : Sexp.Spells getCILEnd [.close] := by
    constructor <;> decide
  have inherited := (start.word isName newline).flatMap fun inherit member =>
    spells_inheritLine (areInherits inherit member)
  have withMode : Sexp.Spells
      (getCILStart profile ++ inherits.flatMap getCILInheritline ++
        (if profile.permissive then typePermissive ++ "\n".toList else []))
      (([.open, .word "block".toList] ++ [.word profile.name.toList]) ++
        inherits.flatMap (fun inherit => (inheritTree inherit).tokens) ++
        (if profile.permissive then permissiveTree.tokens else [])) := by
    cases profile.permissive with
    | false =>
      rw [if_neg Bool.false_ne_true, if_neg Bool.false_ne_true, append_nil, append_nil]
      exact inherited
    | true =>
      rw [if_pos rfl, if_pos rfl]
      exact inherited.append spells_permissiveLine
  have allowed := (withMode.flatMap fun rule member => spells_allowLine (legible rule member)).append ending
  rw [policyText, ← flatMap_def]
  apply Sexp.read_eq_some
  have mode : (if profile.permissive then [permissiveTree] else []).flatMap Sexp.tokens =
      if profile.permissive then permissiveTree.tokens else [] := by
    cases profile.permissive <;> simp
  rw [allowed.lexed]
  simp [policyTree, Sexp.tokens, flatMap_map, mode]

end text

section translated

variable {systemInherits objInherits : List Str} {profile : Profile} {options : Option Options} {text : Str}

/-- What the translator checked about a rule. -/
structure Validated (denied : DeniedOptions) (rule : Rule) : Prop where
  ttype : rule.ttype = allowSelf ∨ isIdentifier rule.ttype.toList = true
  tclass : isIdentifier rule.tclass.toList = true
  perms : ∀ perm ∈ rule.perms, isIdentifier perm.toList = true
  typeKept : rule.ttype ∉ denied.deniedTypes
  classKept : rule.tclass ∉ denied.deniedClasses
  permsKept : ∀ perm ∈ rule.perms, perm ∉ denied.deniedPermissions

variable {denied : DeniedOptions}

theorem validateSemanticRule_ok {rule : Rule} :
    validateSemanticRule denied rule.ttype rule.tclass rule.perms = .ok () ↔ Validated denied rule := by
  have ttype : validateType rule.ttype = .ok () ↔
      rule.ttype = allowSelf ∨ isIdentifier rule.ttype.toList = true := by
    unfold validateType
    split
    · next isSelf => simp [isSelf]
    · next other => simp [validateIdentifier, other]
  simp only [validateSemanticRule, Fallible.seq_ok, Fallible.forM_ok, ttype, validateIdentifier,
    Fallible.require_ok]
  constructor
  · rintro ⟨first, second, third, fourth, fifth, sixth⟩
    exact ⟨first, second, third, fourth, fifth, sixth⟩
  · intro validated
    exact ⟨validated.ttype, validated.tclass, validated.perms, validated.typeKept, validated.classKept,
      validated.permsKept⟩

theorem mem_uniquePerms {perms : PermissionSet} {perm : Str} :
    perm ∈ uniquePerms perms ↔ ∃ listed ∈ perms, listed.toList = perm := by
  simp [uniquePerms]

theorem Validated.legible {rule : Rule} (validated : Validated denied rule)
    (isName : isBlockName profile.name.toList = true) : Legible profile rule where
  ttype := by
    rw [finalType]
    split
    · rw [getPolicyUsage_eq isName]
      have process : Sexp.IsWord ".process".toList := isWord_of_identifier (by decide)
      exact (isWord_of_identifier (isIdentifier_blockName isName).1).append process
    · next other => exact isWord_of_identifier (validated.ttype.resolve_left other)
  tclass := isWord_of_identifier validated.tclass
  perms := by
    intro perm member
    obtain ⟨listed, isListed, rfl⟩ := mem_uniquePerms.mp member
    exact isWord_of_identifier (validated.perms listed isListed)

theorem ruleLine_ok {rule : Rule} {line : Str} :
    ruleLine denied profile rule = .ok line ↔
      Validated denied rule ∧ line = getCILAllowLine profile rule.ttype rule.tclass rule.perms := by
  rw [ruleLine, ← validateSemanticRule_ok]
  cases validateSemanticRule denied rule.ttype rule.tclass rule.perms with
  | error error => simp
  | ok _ => simp [eq_comm]

theorem validateInherited_ok {inherit : Str} :
    validateInherited inherit = .ok () ↔ isIdentifier inherit = true := by
  by_cases identifier : isIdentifier inherit = true <;>
    simp [validateInherited, validateIdentifier, Fallible.require, identifier, Except.mapError]

/-- What the translator accepts, and the text it writes. -/
theorem object2CIL_ok : object2CIL systemInherits objInherits profile options = .ok text ↔
    isBlockName profile.name.toList = true ∧
      (∀ inherit ∈ systemInherits ++ objInherits, isIdentifier inherit = true) ∧
      (∀ rule ∈ rules profile.allow, Validated (deniedOptionsFromOpts options) rule) ∧
      text = policyText profile (inheritedBlocks systemInherits objInherits) ((rules profile.allow).map fun rule =>
        getCILAllowLine profile rule.ttype rule.tclass rule.perms) := by
  constructor
  · intro ok
    obtain ⟨_, isName, ok⟩ := Fallible.bind_ok.mp ok
    obtain ⟨_, inherited, ok⟩ := Fallible.bind_ok.mp ok
    obtain ⟨lines, mapped, ok⟩ := Fallible.bind_ok.mp ok
    obtain rfl := Fallible.pure_ok.mp ok
    obtain ⟨rfl, written⟩ := Fallible.mapM_eq_map (fun rule line written => (ruleLine_ok.mp written).2) mapped
    refine ⟨Fallible.require_ok.mp isName, ?_, ?_, rfl⟩
    · intro inherit member
      exact validateInherited_ok.mp (Fallible.forM_ok.mp inherited inherit member)
    · intro rule member
      exact (ruleLine_ok.mp (written rule member)).1
  · rintro ⟨isName, areInherits, validated, rfl⟩
    have inherited :=
      Fallible.forM_ok.mpr fun inherit member => validateInherited_ok.mpr (areInherits inherit member)
    have written : ∀ rule ∈ rules profile.allow, ruleLine (deniedOptionsFromOpts options) profile rule =
        .ok (getCILAllowLine profile rule.ttype rule.tclass rule.perms) := by
      intro rule member
      exact ruleLine_ok.mpr ⟨validated rule member, rfl⟩
    have mapped := Fallible.mapM_of_forall written
    exact Fallible.bind_ok.mpr ⟨(), Fallible.require_ok.mpr isName, Fallible.bind_ok.mpr ⟨(), inherited,
      Fallible.bind_ok.mpr ⟨_, mapped, Fallible.pure_ok.mpr rfl⟩⟩⟩

def statementOf (profile : Profile) (rule : Rule) : AllowStatement where
  source := "process".toList
  target := finalType profile rule.ttype
  tclass := rule.tclass.toList
  perms := (uniquePerms rule.perms).map .word

theorem allowStatement_ruleTree (rule : Rule) :
    allowStatement (ruleTree profile rule) = some (statementOf profile rule) := by
  rw [ruleTree, allowStatement, if_pos rfl]
  rfl

theorem allowStatement_block (items : List Sexp) :
    allowStatement (.list (.word "block".toList :: items)) = none := by
  unfold allowStatement
  split
  · next same =>
      rw [if_neg]
      rw [← Sexp.word.inj (List.cons.inj (Sexp.list.inj same)).1]
      decide
  · rfl

theorem filterMap_inheritTree (inherits : List Str) :
    (inherits.map inheritTree).filterMap allowStatement = [] := by
  rw [filterMap_map]
  exact filterMap_eq_nil_iff.mpr fun inherit _ => rfl

theorem blockItems_block (name : Str) (items : List Sexp) :
    blockItems (.list (.word "block".toList :: .word name :: items)) = items := by
  rw [blockItems, if_pos rfl]

theorem isIdentifier_inheritedBlocks
    (areInherits : ∀ inherit ∈ systemInherits ++ objInherits, isIdentifier inherit = true) :
    ∀ inherit ∈ inheritedBlocks systemInherits objInherits, isIdentifier inherit = true := by
  intro inherit member
  simp only [inheritedBlocks, mem_append, mem_filter] at member
  rcases member with (isSystem | ⟨isSystem, _⟩) | isObject
  · split at isSystem
    · rw [mem_singleton.mp isSystem]
      decide
    · cases isSystem
  · exact areInherits inherit (mem_append_left _ isSystem)
  · exact areInherits inherit (mem_append_right _ isObject)

section

variable (ok : object2CIL systemInherits objInherits profile options = .ok text)
include ok

theorem read_text :
    Sexp.read text = some [policyTree profile (inheritedBlocks systemInherits objInherits)] := by
  obtain ⟨isName, areInherits, validated, rfl⟩ := object2CIL_ok.mp ok
  have isWord := isWord_of_identifier (isIdentifier_blockName isName).1
  have inherited : ∀ inherit ∈ inheritedBlocks systemInherits objInherits, Sexp.IsWord inherit :=
    fun inherit member =>
    isWord_of_identifier (isIdentifier_inheritedBlocks areInherits inherit member)
  have legible : ∀ rule ∈ rules profile.allow, Legible profile rule := fun rule member =>
    (validated rule member).legible isName
  exact read_policyText isWord inherited legible

theorem allowStatements_text :
    allowStatements text = (rules profile.allow).map (statementOf profile) := by
  have mode : (if profile.permissive then [permissiveTree] else []).filterMap allowStatement = [] := by
    cases profile.permissive <;> rfl
  have statements : ((rules profile.allow).map (ruleTree profile)).filterMap allowStatement =
      (rules profile.allow).map (statementOf profile) := by
    rw [filterMap_map, ← filterMap_eq_map]
    exact congrFun (congrArg _ (funext allowStatement_ruleTree)) _
  have items : (blockItems (policyTree profile (inheritedBlocks systemInherits objInherits))).filterMap
      allowStatement = (rules profile.allow).map (statementOf profile) := by
    rw [policyTree, blockItems_block, filterMap_append, filterMap_append, filterMap_inheritTree, mode,
      statements, nil_append, nil_append]
  have whole : allowStatement (policyTree profile (inheritedBlocks systemInherits objInherits)) = none :=
    allowStatement_block _
  rw [allowStatements, read_text ok, Option.getD_some, flatMap_singleton, whole, items]
  rfl

end

end translated

section denied

variable {profile : Profile} {denied : DeniedOptions} {rule : Rule}

end denied

section profiles

/-- A profile with one rule, for the files of containers. -/
def fileProfile (perms : PermissionSet) : Profile where
  name := "web"
  permissive := false
  allow := SortedMap.empty.insert "container_file_t" (SortedMap.empty.insert "file" perms)

theorem rules_fileProfile (perms : PermissionSet) :
    rules (fileProfile perms).allow = [⟨"container_file_t", "file", perms⟩] := by
  rfl

theorem validated_fileProfile {perm : String} (identifier : isIdentifier perm.toList = true)
    (kept : perm ∉ deniedDefaults.deniedPermissions) :
    Validated (deniedOptionsFromOpts none) ⟨"container_file_t", "file", [perm]⟩ := by
  have ttype : isIdentifier "container_file_t".toList = true := by decide
  have tclass : isIdentifier "file".toList = true := by decide
  have typeKept : "container_file_t" ∉ deniedDefaults.deniedTypes := by decide
  have classKept : "file" ∉ deniedDefaults.deniedClasses := by decide
  exact ⟨Or.inr ttype, tclass, forall_mem_singleton.mpr identifier, typeKept, classKept,
    forall_mem_singleton.mpr kept⟩

theorem object2CIL_fileProfile {perm : String} (identifier : isIdentifier perm.toList = true)
    (kept : perm ∉ deniedDefaults.deniedPermissions) :
    ∃ text, object2CIL [] [] (fileProfile [perm]) none = .ok text := by
  have isName : isBlockName "web".toList = true := by decide
  refine ⟨_, object2CIL_ok.mpr ⟨isName, by simp, ?_, rfl⟩⟩
  rw [rules_fileProfile, forall_mem_singleton]
  exact validated_fileProfile identifier kept

end profiles

end SecurityProfiles.Selinux
