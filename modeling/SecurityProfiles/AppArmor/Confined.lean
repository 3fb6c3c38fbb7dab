import SecurityProfiles.AppArmor.TextGrants

namespace SecurityProfiles

open Syntax List

section entries

/-- A ptrace rule as it may stand in a list of paths, and its access. A comment may follow it. -/
inductive IsPtraceEntry : Str → Str → Prop where
  | plain {blanks word : Str} (areBlank : ∀ char ∈ blanks, isRegexSpace char = true) (some' : word ≠ [])
      (letters : ∀ char ∈ word, char.isAlpha = true) :
      IsPtraceEntry ("ptrace".toList ++ (blanks ++ '(' :: (word ++ "),".toList))) (Text.toLower word)
  | commented {blanks word before comment : Str} (areBlank : ∀ char ∈ blanks, isRegexSpace char = true)
      (some' : word ≠ []) (letters : ∀ char ∈ word, char.isAlpha = true)
      (areBefore : ∀ char ∈ before, isRegexSpace char = true) (whole : '\n' ∉ comment) :
      IsPtraceEntry ("ptrace".toList ++ (blanks ++ '(' :: (word ++ ("),".toList ++ (before ++ '#' :: comment)))))
        (Text.toLower word)

section

variable {keep : Char → Bool} {run rest : Str} {char : Char} (kept : ∀ char ∈ run, keep char = true)
include kept

theorem dropWhile_run (stops : keep char = false) : (run ++ char :: rest).dropWhile keep = char :: rest := by
  rw [dropWhile_append_of_pos kept, dropWhile_cons, if_neg (Bool.eq_false_iff.mp stops)]

theorem takeWhile_run (stops : keep char = false) : (run ++ char :: rest).takeWhile keep = run := by
  rw [takeWhile_append_of_pos kept, takeWhile_cons, if_neg (Bool.eq_false_iff.mp stops), append_nil]

end

theorem isRuleEnd_iff {ending : Str} : isRuleEnd ending = true ↔ ending = [] ∨
    ∃ before comment, (∀ char ∈ before, isRegexSpace char = true) ∧ '\n' ∉ comment ∧
      ending = before ++ '#' :: comment := by
  rw [isRuleEnd, Bool.or_eq_true, decide_eq_true_eq]
  refine or_congr_right ?_
  constructor
  · intro ends
    split at ends
    · next comment dropped =>
        refine ⟨ending.takeWhile isRegexSpace, comment, fun char member => mem_takeWhile_imp member,
          of_decide_eq_true ends, ?_⟩
        rw [← dropped, takeWhile_append_dropWhile]
    · cases ends
  · rintro ⟨before, comment, areBefore, whole, rfl⟩
    rw [dropWhile_run areBefore (by decide)]
    exact decide_eq_true whole

theorem ptraceRule_run {blanks word ending : Str} (areBlank : ∀ char ∈ blanks, isRegexSpace char = true)
    (some' : word ≠ []) (letters : ∀ char ∈ word, char.isAlpha = true) (ends : isRuleEnd ending = true) :
    ptraceRule ("ptrace".toList ++ (blanks ++ '(' :: (word ++ ("),".toList ++ ending)))) =
      some (Text.toLower word) := by
  have parens : ∀ rest, Text.cutPrefix "(".toList ('(' :: rest) = some rest :=
    fun rest => Text.cutPrefix_append ['('] rest
  have closing : "),".toList ++ ending = ')' :: ',' :: ending := rfl
  have closed : Text.cutPrefix "),".toList (')' :: ',' :: ending) = some ending :=
    Text.cutPrefix_append [')', ','] ending
  simp only [ptraceRule, Text.cutPrefix_append, Option.bind_eq_bind, Option.bind_some,
    dropWhile_run areBlank (show isRegexSpace '(' = false by decide), parens, closing,
    dropWhile_run letters (show Char.isAlpha ')' = false by decide),
    takeWhile_run letters (show Char.isAlpha ')' = false by decide), closed, ends]
  rw [if_pos]
  simpa using some'

/-- The expression of the source for these rules matches them and nothing else. -/
theorem ptraceRule_eq_some {entry access : Str} : ptraceRule entry = some access ↔ IsPtraceEntry entry access := by
  constructor
  · intro found
    simp only [ptraceRule, Option.bind_eq_bind, Option.bind_eq_some_iff] at found
    obtain ⟨afterName, name, inParens, opened, afterParens, closed, kept⟩ := found
    obtain rfl := Text.cutPrefix_eq_some.mp name
    have parens := Text.cutPrefix_eq_some.mp opened
    have closing := Text.cutPrefix_eq_some.mp closed
    split at kept
    · next ends =>
        obtain ⟨some', isEnd⟩ := Bool.and_eq_true_iff.mp ends
        obtain rfl := Option.some.inj kept
        have blanks : ∀ char ∈ afterName.takeWhile isRegexSpace, isRegexSpace char = true := fun _ member =>
          mem_takeWhile_imp member
        have letters : ∀ char ∈ inParens.takeWhile Char.isAlpha, char.isAlpha = true := fun _ member =>
          mem_takeWhile_imp member
        have inside : inParens = inParens.takeWhile Char.isAlpha ++ ("),".toList ++ afterParens) := by
          rw [← closing, takeWhile_append_dropWhile]
        have whole : afterName = afterName.takeWhile isRegexSpace ++
            '(' :: (inParens.takeWhile Char.isAlpha ++ ("),".toList ++ afterParens)) := by
          have opening : '(' :: inParens = afterName.dropWhile isRegexSpace := parens.symm
          rw [← inside, opening, takeWhile_append_dropWhile]
        rw [whole]
        rcases isRuleEnd_iff.mp isEnd with rfl | ⟨before, comment, areBefore, oneLine, rfl⟩
        · rw [append_nil]
          exact .plain blanks (of_decide_eq_true some') letters
        · exact .commented blanks (of_decide_eq_true some') letters areBefore oneLine
    · cases kept
  · intro isEntry
    cases isEntry with
    | plain areBlank some' letters =>
      have run := @ptraceRule_run _ _ [] areBlank some' letters rfl
      rwa [append_nil] at run
    | commented areBlank some' letters areBefore whole =>
      exact ptraceRule_run areBlank some' letters (isRuleEnd_iff.mpr (Or.inr ⟨_, _, areBefore, whole, rfl⟩))

instance (entry : Str) : Decidable (∃ access, IsPtraceEntry entry access) :=
  decidable_of_iff ((ptraceRule entry).isSome = true) (by simp only [Option.isSome_iff_exists, ptraceRule_eq_some])

def withoutPtrace (entries : List Str) : List Str :=
  entries.filter fun entry => ¬∃ access, IsPtraceEntry entry access

theorem pathsOnly_eq (entries : List Str) : pathsOnly entries = withoutPtrace entries := by
  unfold pathsOnly withoutPtrace
  congr 1
  funext entry
  rw [Bool.eq_iff_iff, decide_eq_true_eq, Option.isNone_iff_eq_none, Option.eq_none_iff_forall_not_mem]
  simp only [Option.mem_def, ptraceRule_eq_some, not_exists]

end entries

section confined

variable {name text : Str} {mode : AppArmorMode} {abstract : AppArmorAbstract}

/-- The words are those with the property, each of them once. -/
structure Enumerates (words : List Str) (isWord : Str → Prop) : Prop where
  once : words.Nodup
  exact : ∀ word, word ∈ words ↔ isWord word

theorem enumerates_compact_sort (words : List Str) : Enumerates (Text.compact (Text.sort words)) (· ∈ words) :=
  ⟨Text.nodup_compact_sort words, fun _ => Text.mem_compact_sort⟩

def fieldRules (peer : Str) (access : List Str) : List ProfileRule :=
  if access = [] then []
  else [⟨false, .ptrace (access.flatMap PtracePermission.ofWord) (if peer = [] then none else some peer)⟩]

/-- A ptrace rule for every peer. -/
def legacyRule (access : Str) : ProfileRule := ⟨false, .ptrace (PtracePermission.ofWord access) none⟩

/-- The values of an abstract profile, with the accesses of its ptrace field and those among its paths. -/
def AppArmorAbstract.contents (abstract : AppArmorAbstract) (access legacy : List Str) : Contents where
  executables := withoutPtrace abstract.executables
  libraries := withoutPtrace abstract.libraries
  readOnly := withoutPtrace abstract.readOnly
  writeOnly := withoutPtrace abstract.writeOnly
  readWrite := withoutPtrace abstract.readWrite
  ptrace := fieldRules ((abstract.ptrace.map (·.peer)).getD []) access ++ legacy.map legacyRule
  network := abstract.network.map fun _ => ⟨abstract.allowRaw, abstract.allowTCP, abstract.allowUDP⟩
  capabilities := abstract.capabilities.map normalizeCapability
  allowMount := abstract.allowMount

theorem ptrace_eq (name : Str) (abstract : AppArmorAbstract) : (newApparmorData name abstract).ptrace =
    newPtraceRules abstract.ptrace (abstract.entries.filterMap ptraceRule) := by
  simp [newApparmorData, splitPtraceRules, AppArmorAbstract.entries]

/-- The ptrace rules are those of the ptrace section and those of the entries that are ptrace rules themselves. Each
word of either is written once. -/
theorem ptrace_contents (valid : (newApparmorData name abstract).Valid) :
    ∃ access legacy, Enumerates access (fun word => ∃ rules, abstract.ptrace = some rules ∧
      word ∈ rules.allowedAccess) ∧
      Enumerates legacy (fun word => ∃ entry ∈ abstract.entries, IsPtraceEntry entry word) ∧
      (newApparmorData name abstract).ptrace.map ptraceRuleOf =
        fieldRules ((abstract.ptrace.map (·.peer)).getD []) access ++ legacy.map legacyRule := by
  have legacy := enumerates_compact_sort (abstract.entries.filterMap ptraceRule)
  simp only [mem_filterMap, ptraceRule_eq_some] at legacy
  have legacyRules : ∀ words : List Str,
      (words.map fun access => ({ access := [access], peer := [] } : PtraceRule)).map ptraceRuleOf =
      words.map legacyRule := by
    intro words
    rw [map_map]
    refine map_congr_left fun word _ => ?_
    simp [ptraceRuleOf, legacyRule]
  have checked := valid.ptrace
  rw [ptrace_eq, newPtraceRules] at checked
  refine ⟨Text.compact (Text.sort ((abstract.ptrace.map (·.allowedAccess)).getD [])), _, ?_, legacy, ?_⟩
  · have field := enumerates_compact_sort ((abstract.ptrace.map (·.allowedAccess)).getD [])
    refine ⟨field.once, fun word => (field.exact word).trans ?_⟩
    cases abstract.ptrace <;> simp
  · rw [ptrace_eq, newPtraceRules, map_append, legacyRules]
    congr 1
    cases isField : abstract.ptrace with
    | none => rfl
    | some rules =>
      rw [isField] at checked
      by_cases kept : (rules.allowedAccess ≠ [] || rules.peer ≠ []) = true
      · have isKept : (some rules).filter (fun rules => rules.allowedAccess ≠ [] || rules.peer ≠ []) =
            some rules := by
          rw [Option.filter_some, if_pos kept]
        rw [isKept] at checked ⊢
        -- The validation refuses a peer without any access.
        have some' := (checked _ (mem_append_left _ (mem_singleton_self _))).1
        simp only [Option.map_some, Option.getD_some, fieldRules, if_neg some']
        rfl
      · have isDropped : (some rules).filter (fun rules => rules.allowedAccess ≠ [] || rules.peer ≠ []) = none := by
          rw [Option.filter_some, if_neg kept]
        have noAccess : rules.allowedAccess = [] := by
          by_contra some'
          exact kept (by simp [some'])
        rw [isDropped]
        simp only [Option.map_some, Option.getD_some, noAccess]
        rfl

theorem contents_eq (valid : (newApparmorData name abstract).Valid) :
    ∃ access legacy, Enumerates access (fun word => ∃ rules, abstract.ptrace = some rules ∧
      word ∈ rules.allowedAccess) ∧
      Enumerates legacy (fun word => ∃ entry ∈ abstract.entries, IsPtraceEntry entry word) ∧
      (newApparmorData name abstract).contents abstract.allowMount = abstract.contents access legacy := by
  obtain ⟨access, legacy, isAccess, isLegacy, ptrace⟩ := ptrace_contents valid
  refine ⟨access, legacy, isAccess, isLegacy, ?_⟩
  have network : (newApparmorData name abstract).network =
      abstract.network.map fun _ => ⟨abstract.allowRaw, abstract.allowTCP, abstract.allowUDP⟩ := by
    unfold newApparmorData AppArmorAbstract.allowRaw AppArmorAbstract.allowTCP AppArmorAbstract.allowUDP
    cases abstract.network <;> rfl
  simp only [ApparmorData.contents, AppArmorAbstract.contents, ptrace, network, newApparmorData_executables,
    newApparmorData_libraries, newApparmorData_readOnly, newApparmorData_writeOnly, newApparmorData_readWrite,
    newApparmorData_capabilities, pathsOnly_eq, normalizeCapabilities]

/-- A file rule is about a path that starts with a slash or a variable. -/
def PathRooted : Line → Prop
  | .rule ⟨_, .file path _⟩ _ => path.head? = some '/' ∨ path.head? = some '@'
  | _ => True

instance : DecidablePred PathRooted := fun
  | .rule ⟨_, .file path _⟩ _ => inferInstanceAs (Decidable (path.head? = some '/' ∨ path.head? = some '@'))
  | .rule ⟨_, .network _⟩ _ | .rule ⟨_, .capability _⟩ _ | .rule ⟨_, .ptrace _ _⟩ _ | .rule ⟨_, .mount _⟩ _
  | .comment _ | .included _ => isTrue trivial

theorem rooted_pathRules (deny : Bool) (permissions : List Permission) {paths : List Str}
    (strict : ∀ path ∈ paths, strictPathRegex path = true) :
    ∀ line ∈ ruleLines (pathRules deny permissions paths), PathRooted line := by
  simp only [ruleLines, pathRules, map_map, forall_mem_map]
  intro path member
  exact Or.inl (strictPathRegex_iff.mp (strict path member)).1

theorem rooted_enforced {rules : List ProfileRule} (rooted : ∀ line ∈ ruleLines rules, PathRooted line) :
    ∀ line ∈ ruleLines (enforced mode rules), PathRooted line := by
  unfold enforced
  split
  · exact forall_mem_nil _
  · exact rooted

/-- Every path of the rules starts at the root or with a variable. -/
theorem rooted_bodyItems {data : ApparmorData} (allowMount : Bool) (valid : data.Valid) :
    ∀ line ∈ bodyItems mode (data.contents allowMount), PathRooted line := by
  have executables := forall_mem_append.mp fun path member => (valid.executables path member).1
  have paths := (forall_mem_append.mp valid.paths).imp forall_mem_append.mp id
  have ptrace : ∀ line ∈ ptraceItems (data.ptrace.map ptraceRuleOf), PathRooted line := by
    unfold ptraceItems
    split
    · exact forall_mem_nil _
    · simp only [ruleLines, map_map, forall_mem_cons, forall_mem_map]
      exact ⟨trivial, fun _ _ => trivial⟩
  have network : ∀ line ∈ ruleLines (networkRulesIn mode data.network), PathRooted line := by
    rcases data.network with _ | ⟨raw, tcp, udp⟩
    · exact forall_mem_nil _
    · cases mode <;> cases raw <;> cases tcp <;> cases udp <;> decide
  have capabilities : ∀ line ∈ ruleLines (data.capabilities.map fun capability => ⟨false, .capability capability⟩),
      PathRooted line := by
    simp only [ruleLines, map_map, forall_mem_map]
    exact fun _ _ => trivial
  have fsck : ∀ line ∈ ruleLines (if allowMount then fsckRules else []), PathRooted line := by
    cases allowMount <;> decide
  have mount : ∀ line ∈ ruleLines (if allowMount then mountRules else []), PathRooted line := by
    cases allowMount <;> decide
  have denies : ∀ line ∈ if mode = .complain then [] else defaultDenyItems, PathRooted line := by
    cases mode <;> decide
  simp only [bodyItems, filesystemRules, ruleLines_append, forall_mem_append, forall_mem_cons]
  simp only [ApparmorData.contents]
  exact ⟨⟨⟨⟨⟨⟨⟨⟨⟨⟨⟨⟨⟨trivial, trivial, forall_mem_nil _⟩, rooted_pathRules _ _ executables.1,
    rooted_pathRules _ _ executables.2⟩, fsck⟩, trivial, forall_mem_nil _⟩,
    ⟨⟨rooted_pathRules _ _ paths.1.1, rooted_enforced (rooted_pathRules _ _ paths.1.1)⟩,
      rooted_pathRules _ _ paths.1.2, rooted_enforced (rooted_pathRules _ _ paths.1.2)⟩,
    rooted_pathRules _ _ paths.2⟩, ptrace⟩, trivial, forall_mem_nil _⟩, network⟩, trivial, forall_mem_nil _⟩,
    capabilities⟩, mount⟩, trivial, trivial, forall_mem_nil _⟩, denies⟩

theorem IsPtraceEntry.head {entry access : Str} (isEntry : IsPtraceEntry entry access) :
    entry.head? = some 'p' := by
  cases isEntry <;> rfl

theorem legacyRule_mem {contents : Contents} {access : Str} (member : legacyRule access ∈ contents.ptrace) :
    .rule (legacyRule access) none ∈ bodyItems mode contents := by
  have items : .rule (legacyRule access) none ∈ ptraceItems contents.ptrace := by
    rw [ptraceItems, if_neg (ne_nil_of_mem member)]
    exact mem_cons_of_mem _ (mem_map_of_mem member)
  simp only [bodyItems, mem_append]
  tauto

/-- A generated text is one profile of the given name with the flags of the template. Inside of it are the rules of
the template, and under each heading those of the values that belong there. No line of the template is broken, and
no entry that is a ptrace rule is taken for a path. -/
theorem generator_confines_values (named : name ≠ [])
    (generated : generateProfile name mode (some abstract) = .ok text) :
    text.splitOn '\n' = templateLines mode abstract.allowMount (newApparmorData name abstract) ∧
      ∃ access legacy,
        Enumerates access (fun word => ∃ rules, abstract.ptrace = some rules ∧ word ∈ rules.allowedAccess) ∧
        Enumerates legacy (fun word => ∃ entry ∈ abstract.entries, IsPtraceEntry entry word) ∧
        parseProfile text = some
          { preamble := preambleItems
            name := name
            flags := [profileMode mode, "attach_disconnected".toList, "mediate_deleted".toList]
            body := bodyItems mode (abstract.contents access legacy) } ∧
        ∀ entry word, IsPtraceEntry entry word →
          (entry ∈ abstract.entries →
            .rule (legacyRule word) none ∈ bodyItems mode (abstract.contents access legacy)) ∧
          ∀ deny permissions comment,
            .rule ⟨deny, .file entry permissions⟩ comment ∉ bodyItems mode (abstract.contents access legacy) := by
  obtain ⟨valid, rfl⟩ := generateProfile_ok.mp generated
  have whole := whole_templateLines mode abstract.allowMount valid fun _ => capability_valid valid
  have parsed := parseProfile_lines mode abstract.allowMount named valid fun _ => capability_valid valid
  obtain ⟨access, legacy, isAccess, isLegacy, contents⟩ := contents_eq valid
  have some' : templateLines mode abstract.allowMount (newApparmorData name abstract) ≠ [] :=
    append_ne_nil_of_right_ne_nil _ (cons_ne_nil _ _)
  have split := splitOn_intercalate '\n' whole some'
  refine ⟨split, access, legacy, isAccess, isLegacy, ?_, fun entry word isEntry => ⟨fun member => ?_, ?_⟩⟩
  · rw [parseProfile, split, parsed, contents]
    rfl
  · have isWord := (isLegacy.exact word).mpr ⟨entry, member, isEntry⟩
    exact legacyRule_mem (mem_append_right _ (mem_map_of_mem isWord))
  · intro deny permissions comment member
    rw [← contents] at member
    have rooted : entry.head? = some '/' ∨ entry.head? = some '@' :=
      rooted_bodyItems abstract.allowMount valid _ member
    rw [isEntry.head] at rooted
    exact absurd rooted (by decide)

/-- A profile with a program whose path has a space, and with a ptrace rule among its paths. -/
def toolProfile : AppArmorAbstract where
  executable := some ⟨["/opt/my tool".toList], []⟩
  filesystem := some ⟨["/etc/**".toList, "ptrace (read), # for debugging".toList], [], []⟩
  network := none
  capability := some ⟨["CHOWN".toList]⟩
  ptrace := none

theorem toolProfile_confined : ∃ text parsed, generateProfile "tool".toList .enforce (some toolProfile) = .ok text ∧
    parseProfile text = some parsed ∧ .rule (legacyRule "read".toList) none ∈ parsed.body := by
  have valid : (newApparmorData "tool".toList toolProfile).Valid := (ApparmorData.validate_ok _).mp (by decide)
  obtain ⟨text, generated⟩ : ∃ text, generateProfile "tool".toList .enforce (some toolProfile) = .ok text :=
    ⟨_, generateProfile_ok.mpr ⟨valid, rfl⟩⟩
  have isEntry : IsPtraceEntry "ptrace (read), # for debugging".toList "read".toList :=
    ptraceRule_eq_some.mp (by decide)
  have named : "tool".toList ≠ [] := by decide
  obtain ⟨_, access, legacy, _, _, parsed, entries⟩ := generator_confines_values named generated
  exact ⟨text, _, generated, parsed, (entries _ _ isEntry).1 (by decide)⟩

end confined

end SecurityProfiles
