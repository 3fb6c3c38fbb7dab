import SecurityProfiles.AppArmor.Syntax
import SecurityProfiles.AppArmor.RoundTrip

namespace SecurityProfiles

open Syntax
open List hiding lex

section values

variable {path : Str} {char : Char}

theorem isIdChar_strictPath (strict : strictPathRegex path = true) (member : char ∈ path)
    (notSpace : char ≠ ' ') : isIdChar char = true := by
  by_contra other
  simp only [isIdChar, decide_eq_true_eq, not_not, mem_cons, not_mem_nil, or_false] at other
  have isChar := strictPath_char strict member
  rcases other with rfl | rfl | rfl | rfl | rfl | rfl | rfl
  · exact notSpace rfl
  all_goals exact absurd isChar (by decide)

def pathToken (path : Str) : Token := if ' ' ∈ path then .quoted path else .path path

/-- A path is read as one token. It is quoted by the generator where it has to be. -/
theorem lexFrom_quotePath (strict : strictPathRegex path = true) (rest : Str) :
    lexFrom .none (quotePath path ++ ' ' :: rest) = (lexFrom .none rest).map (pathToken path :: ·) := by
  obtain ⟨tail, rfl⟩ : ∃ tail, path = '/' :: tail := by
    obtain ⟨head, _⟩ := strictPathRegex_iff.mp strict
    exact head?_eq_some_iff.mp head
  by_cases spaced : ' ' ∈ '/' :: tail
  · have quoted : quotePath ('/' :: tail) ++ ' ' :: rest = '"' :: (('/' :: tail) ++ '"' :: ' ' :: rest) := by
      rw [quotePath, if_pos (by simpa using spaced)]
      simp
    have plain : ∀ char ∈ '/' :: tail, char ≠ '"' ∧ char ≠ '\\' := by
      intro char member
      have isChar := strictPath_char strict member
      constructor <;>
        · rintro rfl
          exact absurd isChar (by decide)
    rw [quoted, pathToken, if_pos spaced]
    refine (lexFrom_quoted_run plain [] (' ' :: rest)).trans ?_
    rw [lexFrom]
    rfl
  · have unquoted : quotePath ('/' :: tail) ++ ' ' :: rest = '/' :: (tail ++ ' ' :: rest) := by
      rw [quotePath, if_neg (by simpa using spaced)]
      simp
    have ids : ∀ char ∈ tail, isIdChar char = true := by
      intro char member
      refine isIdChar_strictPath strict (List.mem_cons_of_mem _ member) ?_
      rintro rfl
      exact spaced (List.mem_cons_of_mem _ member)
    rw [unquoted, pathToken, if_neg spaced]
    refine (lexFrom_path_run ids ['/'] (' ' :: rest)).trans ?_
    exact lexFrom_path_ends (.blank rest) _

theorem isWordChar_profileName (isName : isProfileNameChar char = true) :
    isWordChar char = true ∧ isSymbol char = false := by
  simp only [isProfileNameChar, Bool.or_eq_true, decide_eq_true_eq] at isName
  constructor
  · rcases isName with alphanum | other
    · rw [isWordChar, alphanum, Bool.true_or]
    · simp only [List.mem_cons, List.not_mem_nil, or_false] at other
      rcases other with rfl | rfl | rfl | rfl <;> decide
  · by_contra isSymbol'
    simp only [isSymbol, Bool.not_eq_false, decide_eq_true_eq, List.mem_cons, List.not_mem_nil,
      or_false] at isSymbol'
    rcases isSymbol' with rfl | rfl | rfl | rfl | rfl | rfl <;> exact absurd isName (by decide)

theorem ptracePeer_chars {peer : Str} (isPeer : ptracePeerRegex peer = true) :
    peer ≠ [] ∧ (∀ char ∈ peer, isWordChar char = true) ∧ peer.head?.all fun char => !isSymbol char := by
  obtain ⟨named, isRead⟩ := Bool.and_eq_true_iff.mp isPeer
  obtain ⟨atoms, read, allPeer⟩ := Option.any_eq_true _ _ |>.mp isRead
  obtain rfl := writeAtoms_of_readAtoms read
  have ofChar : ∀ c, (Atom.char c).isPeer = true → isWordChar c = true ∧ isSymbol c = false := by
    intro c isPeerChar
    simp only [Atom.isPeer, Bool.or_eq_true, decide_eq_true_eq] at isPeerChar
    constructor
    · rcases isPeerChar with alphanum | other
      · rw [isWordChar, alphanum, Bool.true_or]
      · simp only [List.mem_cons, List.not_mem_nil, or_false] at other
        rcases other with rfl | rfl | rfl | rfl | rfl | rfl <;> decide
    · by_contra isSymbol'
      simp only [isSymbol, Bool.not_eq_false, decide_eq_true_eq, List.mem_cons, List.not_mem_nil,
        or_false] at isSymbol'
      rcases isSymbol' with rfl | rfl | rfl | rfl | rfl | rfl <;> exact absurd isPeerChar (by decide)
  refine ⟨of_decide_eq_true named, ?_, ?_⟩
  · intro char member
    rcases ptracePeer_char isPeer member with isPeerChar | inName
    · exact (ofChar char isPeerChar).1
    · have each : ∀ char ∈ (Atom.var "profile_name".toList).text, isWordChar char = true :=
        List.all_eq_true.mp (by decide)
      exact each char inName
  · cases atoms with
    | nil => rfl
    | cons atom atoms =>
      have peerAtom := (List.all_cons ▸ allPeer : (atom.isPeer && atoms.all Atom.isPeer) = true)
      have first := (Bool.and_eq_true_iff.mp peerAtom).1
      cases atom with
      | char c => simpa [Atom.text] using (ofChar c first).2
      | var name => rfl

end values

section lines

/-- The lines stay lines in the text, and no policy starts on them. -/
def Quiet (lines : List Str) : Prop := ∀ line ∈ lines, '\n' ∉ line ∧ line.head? ≠ some 'p'

instance (lines : List Str) : Decidable (Quiet lines) := by
  unfold Quiet
  infer_instance

def Syntax.Line.told : Line → Option ProfileRule
  | .rule found _ => some found
  | _ => none

/-- The lines say what is given, blank ones nothing, and the rules among it are also those that are found line by
line. -/
structure Parses (lines : List Str) (items : List Line) : Prop where
  quiet : Quiet lines
  rules : lines.filterMap readLine = items.filterMap Line.told
  entries : readEntries lines = some (items.map .line)

def ruleLines (rules : List ProfileRule) : List Line := rules.map (.rule · none)

theorem ruleLines_append (first second : List ProfileRule) :
    ruleLines (first ++ second) = ruleLines first ++ ruleLines second := List.map_append

theorem told_ruleLines (rules : List ProfileRule) : (ruleLines rules).filterMap Line.told = rules := by
  rw [ruleLines, List.filterMap_map]
  exact List.filterMap_some

/-- The line has the rule and nothing else. -/
structure Shows (line : Str) (rule : ProfileRule) : Prop where
  whole : '\n' ∉ line
  start : line.head? = some ' '
  read : readLine line = some rule
  entry : entryOf line = some (some (.line (.rule rule none)))

namespace Parses

theorem append {first second : List Str} {items more : List Line} (left : Parses first items)
    (right : Parses second more) : Parses (first ++ second) (items ++ more) where
  quiet := List.forall_mem_append.mpr ⟨left.quiet, right.quiet⟩
  rules := by rw [List.filterMap_append, List.filterMap_append, left.rules, right.rules]
  entries := by
    rw [readEntries_append, left.entries, right.entries, List.map_append]
    rfl

theorem none : Parses [] [] := ⟨List.forall_mem_nil _, rfl, rfl⟩

theorem blank : Parses [[]] [] := ⟨by decide, rfl, rfl⟩

theorem map {α : Type} {inputs : List α} {line : α → Str} {rule : α → ProfileRule}
    (each : ∀ input ∈ inputs, Shows (line input) (rule input)) :
    Parses (inputs.map line) (ruleLines (inputs.map rule)) := by
  induction inputs with
  | nil => exact none
  | cons input inputs ih =>
    obtain ⟨first, others⟩ := List.forall_mem_cons.mp each
    have single : Parses [line input] (ruleLines [rule input]) := by
      refine ⟨List.forall_mem_singleton.mpr ⟨first.whole, ?_⟩, ?_, ?_⟩
      · rw [first.start]
        decide
      · rw [told_ruleLines, List.filterMap_cons, first.read]
        rfl
      · rw [readEntries, first.entry]
        rfl
    exact single.append (ih others)

end Parses

/-- What is denied is denied in enforce mode only. -/
def enforced (mode : AppArmorMode) (rules : List ProfileRule) : List ProfileRule :=
  if mode = .complain then [] else rules

/-- What stands behind a path, and the permissions it means. -/
structure Modes (deny : Bool) (after : String) (permissions : List Permission) (modes : Str) : Prop
    extends Letters after permissions modes where
  whole : '\n' ∉ after.toList
  lexed : lexFrom .none (modes ++ [',']) = some [.word modes, .symbol ',']
  strict : readModes deny modes = some permissions

variable {path modes : Str} {permissions : List Permission} {after : String}

def pathStartTokens : Bool → List Token
  | true => [.word "deny".toList]
  | false => []

theorem readEntry_path {deny : Bool} (meaning : readModes deny modes = some permissions) :
    readEntry (pathStartTokens deny ++ [pathToken path, .word modes, .symbol ',']) =
      some (.line (.rule ⟨deny, .file path permissions⟩ none)) := by
  have other : "deny".toList ≠ "profile".toList := by decide
  unfold pathToken
  cases deny with
  | false => split <;> simp [pathStartTokens, readEntry, readRuleLine, readRule, Syntax.readSubject, meaning]
  | true =>
    split <;> simp only [pathStartTokens, List.cons_append, List.nil_append, readEntry, if_neg other,
      readRuleLine, readRule, Syntax.readSubject, meaning] <;> rfl

theorem shows_path {deny : Bool} (strict : strictPathRegex path = true)
    (means : Modes deny after permissions modes) :
    Shows ((pathStart deny).toList ++ quotePath path ++ after.toList) ⟨deny, .file path permissions⟩ := by
  have lexed : lex ((pathStart deny).toList ++ quotePath path ++ after.toList) =
      some (pathStartTokens deny ++ [pathToken path, .word modes, .symbol ',']) := by
    have rest := lexFrom_quotePath strict (modes ++ [','])
    rw [means.lexed] at rest
    rw [means.text, List.append_assoc]
    cases deny with
    | false => exact rest
    | true => exact congrArg (Option.map (Token.word "deny".toList :: ·)) rest
  refine ⟨?_, by cases deny <;> rfl, readLine_path strict means.toLetters, ?_⟩
  · cases deny <;> simp [pathStart, means.whole, notMem_quotePath strict]
  rw [entryOf, lexed, Option.bind_some]
  have entry := congrArg (Option.map some) (@readEntry_path path modes permissions deny means.strict)
  cases deny <;> exact entry

namespace Parses

variable {paths : List Str} {listed : Option (List Str)} {modes : Str} {after : String}
  {permissions : List Permission}

theorem ofPaths {deny : Bool} (strict : ∀ path ∈ paths, strictPathRegex path = true)
    (means : Modes deny after permissions modes) :
    Parses (pathLines (pathStart deny) after paths) (ruleLines (pathRules deny permissions paths)) :=
  map fun path member => shows_path (strict path member) means

theorem enforced {lines : List Str} {rules : List ProfileRule} (mode : AppArmorMode)
    (parses : Parses lines (ruleLines rules)) :
    Parses (if mode = .complain then [] else lines) (ruleLines (enforced mode rules)) := by
  unfold SecurityProfiles.enforced
  split
  · exact none
  · exact parses

theorem allowList (strict : ∀ path ∈ listed.getD [], strictPathRegex path = true)
    (means : Modes false after permissions modes) :
    Parses (listLines listed (pathLines "  " after))
      (ruleLines (pathRules false permissions (listed.getD []))) := by
  cases listed with
  | none => exact none
  | some paths => exact blank.append (ofPaths strict means)

theorem allowDenyList {modes' : Str} {after' : String} {denied : List Permission} (mode : AppArmorMode)
    (strict : ∀ path ∈ listed.getD [], strictPathRegex path = true) (means : Modes false after permissions modes)
    (means' : Modes true after' denied modes') :
    Parses (listLines listed fun paths => pathLines "  " after paths ++ [[]] ++
        if mode = .complain then [] else pathLines "  deny " after' paths)
      (ruleLines (pathRules false permissions (listed.getD []) ++
        SecurityProfiles.enforced mode (pathRules true denied (listed.getD [])))) := by
  cases listed with
  | none =>
    cases mode <;> exact none
  | some paths =>
    have lines :=
      blank.append (((ofPaths strict means).append blank).append (enforced mode (ofPaths strict means')))
    rw [ruleLines_append]
    simpa [listLines, pathStart] using lines

end Parses

end lines

section sections

variable {data : ApparmorData} (mode : AppArmorMode)

/-- The rules of the file system, with what a list is about denied otherwise. -/
def filesystemRules (readOnly writeOnly readWrite : List Str) : List ProfileRule :=
  pathRules false [.read] readOnly ++ enforced mode (pathRules true [.write, .link, .lock] readOnly) ++
    (pathRules false [.write, .link, .lock] writeOnly ++ enforced mode (pathRules true [.read] writeOnly)) ++
    pathRules false [.read, .write, .link, .lock] readWrite

theorem parses_executableLines (valid : data.Valid) : Parses (executableLines data.executable)
    (ruleLines (pathRules false [.exec, .read] data.executables ++ pathRules false [.mmap, .read]
      data.libraries)) := by
  have strict := List.forall_mem_append.mp fun path member => (valid.executables path member).1
  revert strict
  unfold ApparmorData.executables ApparmorData.libraries
  cases data.executable with
  | none => exact fun _ => .blank
  | some rules =>
    intro strict
    have exec : Modes false " ixr," [.exec, .read] "ixr".toList :=
      ⟨⟨rfl, by decide, rfl⟩, by decide, by decide, rfl⟩
    have mmap : Modes false " mr," [.mmap, .read] "mr".toList := ⟨⟨rfl, by decide, rfl⟩, by decide, by decide, rfl⟩
    have executables := Parses.allowList strict.1 exec
    have libraries := Parses.allowList strict.2 mmap
    have lines := ((executables.append .blank).append libraries).append .blank
    rw [ruleLines_append]
    simpa [executableLines] using lines

/-- The file section is read as the rules for its three lists. The denials are part of it in enforce mode only. -/
theorem parses_filesystemLines (valid : data.Valid) : Parses (filesystemLines mode data.filesystem)
    (ruleLines (filesystemRules mode data.readOnly data.writeOnly data.readWrite)) := by
  have strict := (List.forall_mem_append.mp valid.paths).imp List.forall_mem_append.mp id
  revert strict
  unfold ApparmorData.readOnly ApparmorData.writeOnly ApparmorData.readWrite
  cases data.filesystem with
  | none =>
    intro _
    cases mode <;> exact .none
  | some rules =>
    intro strict
    have read : Modes false " r," [.read] "r".toList := ⟨⟨rfl, by decide, rfl⟩, by decide, by decide, rfl⟩
    have write : Modes false " wlk," [.write, .link, .lock] "wlk".toList :=
      ⟨⟨rfl, by decide, rfl⟩, by decide, by decide, rfl⟩
    have both : Modes false " rwlk," [.read, .write, .link, .lock] "rwlk".toList :=
      ⟨⟨rfl, by decide, rfl⟩, by decide, by decide, rfl⟩
    have noRead : Modes true " r," [.read] "r".toList := ⟨⟨rfl, by decide, rfl⟩, by decide, by decide, rfl⟩
    have noWrite : Modes true " wlk," [.write, .link, .lock] "wlk".toList :=
      ⟨⟨rfl, by decide, rfl⟩, by decide, by decide, rfl⟩
    have readOnly := Parses.allowDenyList mode strict.1.1 read noWrite
    have writeOnly := Parses.allowDenyList mode strict.1.2 write noRead
    have readWrite := Parses.allowList strict.2 both
    have lines := (((readOnly.append .blank).append writeOnly).append .blank).append readWrite
    rw [filesystemRules, ruleLines_append, ruleLines_append]
    simpa [filesystemLines] using lines

/-- The ptrace rules under their heading, if there are any. -/
def ptraceItems (rules : List ProfileRule) : List Line :=
  if rules = [] then [] else .comment " Ptrace rules".toList :: ruleLines rules

def accessTokens : List Str → List Token
  | [] => []
  | [word] => [.word word, .symbol ')']
  | word :: rest => .word word :: .symbol ',' :: accessTokens rest

theorem lexFrom_accessWord {word : Str} (valid : word ∈ ptraceAccess) (rest : Str) :
    lexFrom .none (word ++ ',' :: ' ' :: rest) = (lexFrom .none rest).map (.word word :: .symbol ',' :: ·) ∧
      lexFrom .none (word ++ ')' :: rest) = (lexFrom .none rest).map (.word word :: .symbol ')' :: ·) := by
  simp only [ptraceAccess, List.map_cons, List.map_nil, List.mem_cons, List.not_mem_nil, or_false] at valid
  rcases valid with rfl | rfl | rfl | rfl | rfl | rfl | rfl <;> exact ⟨rfl, rfl⟩

variable {access : List Str} {tokens : List Token} {rule : PtraceRule}

theorem lexFrom_access (some' : access ≠ []) (valid : ∀ word ∈ access, word ∈ ptraceAccess)
    (rest : Str) : lexFrom .none (", ".toList.intercalate access ++ ')' :: rest) =
      (lexFrom .none rest).map (accessTokens access ++ ·) := by
  induction access with
  | nil => exact absurd rfl some'
  | cons word access ih =>
    obtain ⟨isWord, others⟩ := List.forall_mem_cons.mp valid
    cases access with
    | nil =>
      rw [List.intercalate_singleton, (lexFrom_accessWord isWord rest).2]
      rfl
    | cons next access =>
      have later := ih (List.cons_ne_nil _ _) others
      have joined : ", ".toList.intercalate (word :: next :: access) ++ ')' :: rest =
          word ++ ',' :: ' ' :: (", ".toList.intercalate (next :: access) ++ ')' :: rest) := by
        rw [List.intercalate_cons_cons, List.append_assoc, List.append_assoc]
        rfl
      rw [joined, (lexFrom_accessWord isWord _).1, later, Option.map_map]
      rfl

theorem readWords_accessTokens (some' : access ≠ []) (rest : List Token) :
    readWords (accessTokens access ++ rest) = some (access, rest) := by
  induction access with
  | nil => exact absurd rfl some'
  | cons word access ih =>
    cases access with
    | nil => rfl
    | cons next access =>
      rw [accessTokens, List.cons_append, List.cons_append, readWords, ih (List.cons_ne_nil _ _)]
      · rfl
      · simp

theorem readAccess_valid (valid : ∀ word ∈ access, word ∈ ptraceAccess) :
    readAccess access = some (access.flatMap PtracePermission.ofWord) := by
  have known : ∀ word ∈ ptraceAccess, PtracePermission.ofWord word ≠ [] := by decide
  rw [readAccess, if_pos fun word member => known word (valid word member)]

def peerTokens (peer : Str) : List Token :=
  if peer = [] then [.symbol ','] else [.word "peer".toList, .symbol '=', nameToken peer, .symbol ',']

theorem lexFrom_peer {peer : Str} (isPeer : peer = [] ∨ ptracePeerRegex peer = true) :
    lexFrom .none ((if peer = [] then [] else " peer=".toList ++ peer) ++ [',']) = some (peerTokens peer) := by
  by_cases nobody : peer = []
  · rw [if_pos nobody, peerTokens, if_pos nobody]
    rfl
  · obtain ⟨named, areWord, start⟩ := ptracePeer_chars (isPeer.resolve_left nobody)
    have label : ∀ rest tokens, lexFrom .none rest = some tokens →
        lexFrom .none (" peer=".toList ++ rest) = some (.word "peer".toList :: .symbol '=' :: tokens) := by
      intro rest tokens lexed
      refine (congrArg (Option.map (Token.word "peer".toList :: Token.symbol '=' :: ·)) lexed).trans ?_
      rfl
    rw [if_neg nobody, List.append_assoc, peerTokens, if_neg nobody]
    exact label _ _ (lexFrom_name named areWord start .comma)

theorem readPeer_peerTokens (peer : Str) :
    readPeer (peerTokens peer) = some (if peer = [] then none else some peer) := by
  unfold peerTokens
  split
  · rfl
  · rw [readPeer, if_pos rfl, readName_nameToken]
    rfl

theorem lex_ptrace {rest : Str} (lexed : lexFrom .none rest = some tokens) :
    lex ("  ptrace ".toList ++ '(' :: rest) = some (.word "ptrace".toList :: .symbol '(' :: tokens) := by
  have keyword : lex ("  ptrace ".toList ++ '(' :: rest) =
      ((lexFrom .none rest).map (.symbol '(' :: ·)).map (.word "ptrace".toList :: ·) := rfl
  rw [keyword, lexed]
  rfl

theorem lex_ptraceLine (some' : rule.access ≠ [])
    (valid : ∀ word ∈ rule.access, word ∈ ptraceAccess) (peer : rule.peer = [] ∨ ptracePeerRegex rule.peer = true) :
    lex (ptraceLine rule) =
      some (.word "ptrace".toList :: .symbol '(' :: (accessTokens rule.access ++ peerTokens rule.peer)) := by
  apply lex_ptrace
  rw [lexFrom_access some' valid, lexFrom_peer peer]
  rfl

theorem readPtraceRule_tokens (some' : rule.access ≠ []) (valid : ∀ word ∈ rule.access, word ∈ ptraceAccess) :
    readPtraceRule (accessTokens rule.access ++ peerTokens rule.peer) = some (ptraceRuleOf rule).subject := by
  simp only [readPtraceRule, readWords_accessTokens some', Option.bind_eq_bind, Option.bind_some,
    readAccess_valid valid, readPeer_peerTokens]
  rfl

theorem readEntry_ptrace {subject : Subject} (ends : tokens.getLast? = some (.symbol ','))
    (read : readPtraceRule tokens = some subject) :
    readEntry (.word "ptrace".toList :: .symbol '(' :: tokens) = some (.line (.rule ⟨false, subject⟩ none)) := by
  have last : (Token.word "ptrace".toList :: .symbol '(' :: tokens).getLast? = some (.symbol ',') := by
    rw [List.getLast?_cons, List.getLast?_cons, ends]
    rfl
  have ruled : readRule (.word "ptrace".toList :: .symbol '(' :: tokens) =
      (readPtraceRule tokens).map (⟨false, ·⟩) := rfl
  have entry : readEntry (.word "ptrace".toList :: .symbol '(' :: tokens) =
      (readRuleLine (.word "ptrace".toList :: .symbol '(' :: tokens)).map .line := rfl
  rw [entry, readRuleLine, last, ruled, read]
  rfl

theorem getLast_peerTokens (peer : Str) (before : List Token) :
    (before ++ peerTokens peer).getLast? = some (.symbol ',') := by
  unfold peerTokens
  split <;> simp

theorem entryOf_ptrace (some' : rule.access ≠ [])
    (valid : ∀ word ∈ rule.access, word ∈ ptraceAccess) (peer : rule.peer = [] ∨ ptracePeerRegex rule.peer = true) :
    entryOf (ptraceLine rule) = some (some (.line (.rule (ptraceRuleOf rule) none))) := by
  have read := readEntry_ptrace (getLast_peerTokens rule.peer (accessTokens rule.access))
    (readPtraceRule_tokens some' valid)
  rw [entryOf, lex_ptraceLine some' valid peer, Option.bind_some]
  exact congrArg (Option.map some) read

theorem parses_ptraceLines (valid : data.Valid) :
    Parses (ptraceLines data.ptrace) (ptraceItems (data.ptrace.map ptraceRuleOf)) := by
  unfold ptraceLines ptraceItems
  simp only [List.map_eq_nil_iff]
  split
  · exact Parses.blank.append .blank
  · have start : Parses [[], [], "  # Ptrace rules".toList] [.comment " Ptrace rules".toList] :=
      ⟨by decide, by decide, by decide⟩
    have lines : Parses (data.ptrace.map ptraceLine) (ruleLines (data.ptrace.map ptraceRuleOf)) := by
      apply Parses.map
      intro rule member
      obtain ⟨some', access, peer⟩ := valid.ptrace rule member
      exact ⟨notMem_ptraceLine access peer, rfl, readLine_ptrace some' access peer,
        entryOf_ptrace some' access peer⟩
    simpa using (start.append lines).append .blank

/-- The rules of the network. Raw access is denied where it is not allowed. -/
def networkRulesIn : Option Network → List ProfileRule
  | none => []
  | some rules =>
    (if rules.allowRaw then [⟨false, .network "raw".toList⟩] else enforced mode [⟨true, .network "raw".toList⟩]) ++
      (if rules.allowTCP then [⟨false, .network "tcp".toList⟩] else []) ++
      if rules.allowUDP then [⟨false, .network "udp".toList⟩] else []

theorem parses_networkLines (network : Option Network) :
    Parses (networkLines mode network) (ruleLines (networkRulesIn mode network)) := by
  rcases network with _ | ⟨raw, tcp, udp⟩
  · exact .none
  · cases mode <;> cases raw <;> cases tcp <;> cases udp <;> exact ⟨by decide, by decide, by decide⟩

theorem entryOf_capability {capability : Str} (valid : capability ∈ validCapabilities) :
    entryOf ("  capability ".toList ++ capability ++ ",".toList) =
      some (some (.line (.rule ⟨false, .capability capability⟩ none))) := by
  revert capability
  unfold validCapabilities
  simp only [List.map_cons, List.map_nil]
  repeat rw [String.toList_ofList]
  decide

theorem parses_capabilityLines {capabilities : List Str} (valid : ∀ name ∈ capabilities, name ∈ validCapabilities) :
    Parses (capabilityLines capabilities)
      (ruleLines (capabilities.map fun capability => ⟨false, .capability capability⟩)) := by
  apply Parses.map
  intro capability member
  refine ⟨?_, rfl, readLine_capability (valid capability member), entryOf_capability (valid capability member)⟩
  simp only [List.mem_append, not_or]
  exact ⟨⟨by decide, (validCapability_plain (valid capability member)).2⟩, by decide⟩

theorem parses_mountLines (allowMount : Bool) {lines : List String} {rules : List ProfileRule}
    (each : Parses (lines.map String.toList) (ruleLines rules)) :
    Parses (mountLines allowMount lines) (ruleLines (if allowMount then rules else [])) := by
  have spaces : Parses ["  ".toList] [] := ⟨by decide, by decide, by decide⟩
  cases allowMount with
  | false => exact spaces
  | true => simpa [mountLines] using (spaces.append each).append spaces

/-- The default denials, some of which are explained. -/
def defaultDenyItems : List Line :=
  [.rule ⟨true, .file "@\x7bPROC\x7d/*".toList [.write]⟩
      (some " deny write for all files directly in /proc (not in a subdir)".toList),
    .rule ⟨true, .file
    "@\x7bPROC\x7d/\x7b[^1-9],[^1-9][^0-9],[^1-9s][^0-9y][^0-9s],[^1-9][^0-9][^0-9][^0-9]*\x7d/**".toList
      [.write]⟩ none,
    .rule ⟨true, .file "@\x7bPROC\x7d/sys/[^k]**".toList [.write]⟩
      (some " deny /proc/sys except /proc/sys/k* (effectively /proc/sys/kernel)".toList),
    .rule ⟨true, .file "@\x7bPROC\x7d/sys/kernel/\x7b?,??,[^s][^h][^m]**\x7d".toList [.write]⟩
      (some " deny everything except shm* in /proc/sys/kernel/".toList)] ++
  ruleLines (pathRules true [.read, .write, .lock, .link, .exec]
    ["@\x7bPROC\x7d/sysrq-trigger".toList, "@\x7bPROC\x7d/mem".toList, "@\x7bPROC\x7d/kmem".toList,
      "@\x7bPROC\x7d/kcore".toList, "/sys/firmware/efi/efivars/**".toList])

theorem parses_defaultDenyLines : Parses defaultDenyLines defaultDenyItems := by
  unfold defaultDenyLines defaultDenyItems
  simp only [List.map_cons, List.map_nil]
  repeat rw [String.toList_ofList]
  exact ⟨by decide, by decide, by decide⟩

def preambleItems : List Line :=
  [.comment
      " Generated by https://github.com/kubernetes-sigs/security-profiles-operator, do not edit by hand.".toList,
    .included "tunables/global".toList]

theorem parses_preamble : Parses [[],
    "# Generated by https://github.com/kubernetes-sigs/security-profiles-operator, do not edit by hand.".toList,
    "#include <tunables/global>".toList] preambleItems := by
  unfold preambleItems
  repeat rw [String.toList_ofList]
  exact ⟨by decide, by decide, by decide⟩

/-- The values that a profile is about. -/
structure Contents where
  executables : List Str
  libraries : List Str
  readOnly : List Str
  writeOnly : List Str
  readWrite : List Str
  ptrace : List ProfileRule
  network : Option Network
  capabilities : List Str
  allowMount : Bool

/-- What stands inside of the profile: the rules of the template, and those for each value under their headings. -/
def bodyItems (contents : Contents) : List Line :=
  [.included "abstractions/base".toList, .comment " Executable rules".toList] ++
    ruleLines (pathRules false [.exec, .read] contents.executables ++
      pathRules false [.mmap, .read] contents.libraries) ++
    ruleLines (if contents.allowMount then fsckRules else []) ++
    [.comment " Filesystem rules".toList] ++
    ruleLines (filesystemRules mode contents.readOnly contents.writeOnly contents.readWrite) ++
    ptraceItems contents.ptrace ++
    [.comment " Network rules".toList] ++ ruleLines (networkRulesIn mode contents.network) ++
    [.comment " Capabilities rules".toList] ++
    ruleLines (contents.capabilities.map fun capability => ⟨false, .capability capability⟩) ++
    ruleLines (if contents.allowMount then mountRules else []) ++
    [.comment " Raw rules placeholder".toList,
      .comment " Add default deny for known information leak/priv esc paths".toList] ++
    if mode = .complain then [] else defaultDenyItems

def ApparmorData.contents (allowMount : Bool) (data : ApparmorData) : Contents where
  executables := data.executables
  libraries := data.libraries
  readOnly := data.readOnly
  writeOnly := data.writeOnly
  readWrite := data.readWrite
  ptrace := data.ptrace.map ptraceRuleOf
  network := data.network
  capabilities := data.capabilities
  allowMount := allowMount

def headerLine (mode : AppArmorMode) (name : Str) : Str :=
  "profile ".toList ++ name ++ " flags=(".toList ++ profileMode mode ++
    ",attach_disconnected,mediate_deleted) \x7b".toList

variable (allowMount : Bool)

/-- Between the line on which the profile starts and that on which it ends are the lines of its body. -/
theorem templateLines_eq (valid : data.Valid)
    (capabilities : ∀ name ∈ data.capabilities, name ∈ validCapabilities) :
    ∃ body, templateLines mode allowMount data = [[],
        "# Generated by https://github.com/kubernetes-sigs/security-profiles-operator, do not edit by hand.".toList,
        "#include <tunables/global>".toList] ++ headerLine mode data.name :: body ++ [[], "\x7d".toList, []] ∧
      Parses body (bodyItems mode (data.contents allowMount)) := by
  have start : Parses ["  #include <abstractions/base>".toList, [], "  # Executable rules".toList]
      [.included "abstractions/base".toList, .comment " Executable rules".toList] :=
        ⟨by decide, by decide, by decide⟩
  have fsck : Parses (["  /sbin/fsck ixr,", "  /sbin/fsck.ext4 ixr,"].map String.toList) (ruleLines fsckRules) :=
    ⟨by decide, by decide, by decide⟩
  have mount : Parses (["  mount,", "  remount,", "  umount,"].map String.toList) (ruleLines mountRules) :=
    ⟨by decide, by decide, by decide⟩
  have filesystem : Parses [[], "  # Filesystem rules".toList] [.comment " Filesystem rules".toList] :=
    ⟨by decide, by decide, by decide⟩
  have network : Parses ["  # Network rules".toList] [.comment " Network rules".toList] :=
    ⟨by decide, by decide, by decide⟩
  have capability : Parses [[], [], "  # Capabilities rules".toList] [.comment " Capabilities rules".toList] :=
    ⟨by decide, by decide, by decide⟩
  have blanks : Parses [[], []] [] := Parses.blank.append .blank
  have placeholder : Parses [[], "  # Raw rules placeholder".toList, [],
      "  # Add default deny for known information leak/priv esc paths".toList]
      [.comment " Raw rules placeholder".toList,
        .comment " Add default deny for known information leak/priv esc paths".toList] := by
    repeat rw [String.toList_ofList]
    exact ⟨by decide, by decide, by decide⟩
  have denies : Parses (if mode = .complain then [] else [] :: defaultDenyLines)
      (if mode = .complain then [] else defaultDenyItems) := by
    split
    · exact .none
    · exact Parses.blank.append parses_defaultDenyLines
  have files := (((start.append (parses_executableLines valid)).append (parses_mountLines allowMount fsck)).append
    filesystem).append (parses_filesystemLines mode valid)
  have others := ((((files.append (parses_ptraceLines valid)).append network).append
    (parses_networkLines mode data.network)).append capability).append (parses_capabilityLines capabilities)
  have lines := (((others.append blanks).append (parses_mountLines allowMount mount)).append placeholder).append
    denies
  refine ⟨_, ?_, Eq.subst (motive := Parses _) ?_ lines⟩
  · rfl
  · simp only [bodyItems, ApparmorData.contents, List.append_nil, List.append_assoc]
    rfl

theorem headerLine_eq (name : Str) : headerLine mode name = "profile ".toList ++
    (name ++ ' ' :: ("flags=(".toList ++ profileMode mode ++
      ",attach_disconnected,mediate_deleted) \x7b".toList)) := by
  have regroup : ∀ keyword flags first other last : Str, flags = ' ' :: first →
      keyword ++ name ++ flags ++ other ++ last = keyword ++ (name ++ ' ' :: (first ++ other ++ last)) := by
    rintro keyword _ first other last rfl
    simp
  have flags : " flags=(".toList = ' ' :: "flags=(".toList := by decide
  exact regroup _ _ _ (profileMode mode) _ flags

theorem notMem_headerLine {name : Str} (whole : '\n' ∉ name) : '\n' ∉ headerLine mode name := by
  have isMode : '\n' ∉ profileMode mode := by cases mode <;> decide
  have apart : ∀ keyword flags other last : Str, '\n' ∉ keyword → '\n' ∉ flags → '\n' ∉ other → '\n' ∉ last →
      '\n' ∉ keyword ++ name ++ flags ++ other ++ last := by
    intro keyword flags other last inKeyword inFlags inOther inLast
    simp only [List.mem_append, not_or]
    exact ⟨⟨⟨⟨inKeyword, whole⟩, inFlags⟩, inOther⟩, inLast⟩
  exact apart _ _ (profileMode mode) _ (by decide) (by decide) isMode (by decide)

/-- The first line of a profile is read with its name and the flags of the template. -/
theorem entryOf_headerLine {name : Str} (named : name ≠ []) (valid : profileNameChars name = true) :
    entryOf (headerLine mode name) = some (some (.header name
      [profileMode mode, "attach_disconnected".toList, "mediate_deleted".toList])) := by
  have chars : ∀ char ∈ name, isWordChar char = true ∧ isSymbol char = false := fun char member =>
    isWordChar_profileName (List.all_eq_true.mp (Bool.and_eq_true_iff.mp valid).2 char member)
  have start : name.head?.all fun char => !isSymbol char := by
    cases name with
    | nil => rfl
    | cons char rest => simpa using (chars char List.mem_cons_self).2
  have keyword : ∀ rest, lex ("profile ".toList ++ rest) = (lexFrom .none rest).map (.word "profile".toList :: ·) :=
    fun _ => rfl
  have rest : lexFrom .none ("flags=(".toList ++ profileMode mode ++
      ",attach_disconnected,mediate_deleted) \x7b".toList) =
      some [.word "flags".toList, .symbol '=', .symbol '(', .word (profileMode mode), .symbol ',',
        .word "attach_disconnected".toList, .symbol ',', .word "mediate_deleted".toList, .symbol ')',
        .symbol '\x7b'] := by
    cases mode <;> decide
  have lexed := lexFrom_name named (fun char member => (chars char member).1) start
    (.blank ("flags=(".toList ++ profileMode mode ++ ",attach_disconnected,mediate_deleted) \x7b".toList))
  rw [rest] at lexed
  rw [entryOf, headerLine_eq, keyword, lexed]
  have header :
      ∀ mode', readEntry [.word "profile".toList, nameToken name, .word "flags".toList, .symbol '=', .symbol '(',
        .word mode', .symbol ',', .word "attach_disconnected".toList, .symbol ',', .word "mediate_deleted".toList,
      .symbol ')', .symbol '\x7b'] =
      some (.header name [mode', "attach_disconnected".toList, "mediate_deleted".toList]) := by
    intro mode'
    simp only [readEntry, if_pos, readHeader, readName_nameToken]
    rfl
  exact congrArg (Option.map some) (header _)

theorem whole_templateLines (valid : data.Valid)
    (capabilities : ∀ name ∈ data.capabilities, name ∈ validCapabilities) :
    ∀ line ∈ templateLines mode allowMount data, '\n' ∉ line := by
  have header := notMem_headerLine mode (profileName_whole valid.name)
  obtain ⟨body, shape, parses⟩ := templateLines_eq mode allowMount valid capabilities
  have stop : ∀ line ∈ [[], "\x7d".toList, []], '\n' ∉ line := by decide
  rw [shape]
  refine List.forall_mem_append.mpr ⟨List.forall_mem_append.mpr ⟨fun line member => ?_, ?_⟩, stop⟩
  · exact (parses_preamble.quiet line member).1
  · exact List.forall_mem_cons.mpr ⟨header, fun line member => (parses.quiet line member).1⟩

theorem parseProfile_lines (named : data.name ≠ []) (valid : data.Valid)
    (capabilities : ∀ name ∈ data.capabilities, name ∈ validCapabilities) :
    (readEntries (templateLines mode allowMount data)).bind readEnclosed =
      some ⟨preambleItems, data.name, [profileMode mode, "attach_disconnected".toList, "mediate_deleted".toList],
        bodyItems mode (data.contents allowMount)⟩ := by
  have isName : profileNameChars data.name = true := valid.name.resolve_left named
  obtain ⟨body, shape, parses⟩ := templateLines_eq mode allowMount valid capabilities
  have closes : readEntries [[], "\x7d".toList, []] = some [.close] := by decide
  rw [shape, readEntries_append, readEntries_append, parses_preamble.entries, readEntries,
    entryOf_headerLine mode named isName, parses.entries, closes]
  have read := readBody_lines (bodyItems mode (data.contents allowMount))
  simp only [Option.bind_some, Option.map_some, preambleItems, List.map_cons, List.map_nil, List.cons_append,
    List.nil_append, Option.toList_some, readEnclosed, read]

end sections

theorem told_ptraceItems (rules : List ProfileRule) : (ptraceItems rules).filterMap Line.told = rules := by
  unfold ptraceItems
  split
  · next none =>
      rw [none]
      rfl
  · exact told_ruleLines rules

theorem told_bodyItems (allowMount : Bool) (data : ApparmorData) :
    (bodyItems .enforce (data.contents allowMount)).filterMap Line.told = rulesOf allowMount data := by
  have network : networkRulesIn .enforce data.network = networkRules data.network := by
    rcases data.network with _ | ⟨raw, tcp, udp⟩
    · rfl
    · cases raw <;> rfl
  have denied : (if AppArmorMode.enforce = .complain then [] else defaultDenyItems).filterMap Line.told =
      defaultDenyRules := rfl
  have headings : ∀ text, [Line.comment text].filterMap Line.told = [] := fun _ => rfl
  have start : [Line.included "abstractions/base".toList, .comment " Executable rules".toList].filterMap
      Line.told = [] := rfl
  have placeholder : [Line.comment " Raw rules placeholder".toList,
      .comment " Add default deny for known information leak/priv esc paths".toList].filterMap Line.told = [] := rfl
  have files : ∀ rules, enforced .enforce rules = rules := fun _ => rfl
  simp only [bodyItems, List.filterMap_append, told_ruleLines, told_ptraceItems, start, headings,
    placeholder, denied, ApparmorData.contents, network, filesystemRules, files, rulesOf, List.nil_append,
    List.append_assoc]
  rfl

/-- What is generated is read as the rules of the values. -/
theorem readProfile_generateProfile {name text : Str} {abstract : AppArmorAbstract}
    (generated : generateProfile name .enforce (some abstract) = .ok text) :
    readProfile text = rulesOf abstract.allowMount (newApparmorData name abstract) := by
  obtain ⟨valid, written⟩ := generateProfile_ok.mp generated
  have capabilities : ∀ name' ∈ (newApparmorData name abstract).capabilities, name' ∈ validCapabilities :=
    fun _ => capability_valid valid
  obtain ⟨body, shape, parses⟩ := templateLines_eq .enforce abstract.allowMount valid capabilities
  have header : ∀ rest, readLine ("profile ".toList ++ rest) = none := fun _ => rfl
  have stop : [[], "\x7d".toList, []].filterMap readLine = [] := by decide
  rw [written, readProfile, splitOn_intercalate '\n' (whole_templateLines .enforce _ valid capabilities)
    (append_ne_nil_of_right_ne_nil _ (cons_ne_nil _ _)), shape, filterMap_append,
    filterMap_append, parses_preamble.rules, filterMap_cons, headerLine_eq, header, parses.rules, stop,
    told_bodyItems, append_nil]
  rfl

end SecurityProfiles
