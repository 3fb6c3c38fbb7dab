import SecurityProfiles.AppArmor.Read

namespace SecurityProfiles

open List

def pathRules (deny : Bool) (permissions : List Permission) (paths : List Str) : List ProfileRule :=
  paths.map fun path => ⟨deny, .file path permissions⟩

def ptraceRuleOf (rule : PtraceRule) : ProfileRule :=
  ⟨false, .ptrace (rule.access.flatMap PtracePermission.ofWord) (if rule.peer = [] then none else some rule.peer)⟩

def networkRules : Option Network → List ProfileRule
  | none => []
  | some rules =>
    ⟨!rules.allowRaw, .network "raw".toList⟩ ::
      ((if rules.allowTCP then [⟨false, .network "tcp".toList⟩] else []) ++
        if rules.allowUDP then [⟨false, .network "udp".toList⟩] else [])

def fsckRules : List ProfileRule := pathRules false [.exec, .read] ["/sbin/fsck".toList, "/sbin/fsck.ext4".toList]

def mountRules : List ProfileRule :=
  ["mount", "remount", "umount"].map fun operation => ⟨false, .mount operation.toList⟩

def defaultDenyRules : List ProfileRule :=
  pathRules true [.write]
      ["@\x7bPROC\x7d/*".toList,
        "@\x7bPROC\x7d/\x7b[^1-9],[^1-9][^0-9],[^1-9s][^0-9y][^0-9s],[^1-9][^0-9][^0-9][^0-9]*\x7d/**".toList,
        "@\x7bPROC\x7d/sys/[^k]**".toList, "@\x7bPROC\x7d/sys/kernel/\x7b?,??,[^s][^h][^m]**\x7d".toList] ++
    pathRules true [.read, .write, .lock, .link, .exec]
      ["@\x7bPROC\x7d/sysrq-trigger".toList, "@\x7bPROC\x7d/mem".toList, "@\x7bPROC\x7d/kmem".toList,
        "@\x7bPROC\x7d/kcore".toList, "/sys/firmware/efi/efivars/**".toList]

def rulesOf (allowMount : Bool) (data : ApparmorData) : List ProfileRule :=
  pathRules false [.exec, .read] data.executables ++ pathRules false [.mmap, .read] data.libraries ++
    (if allowMount then fsckRules else []) ++
    pathRules false [.read] data.readOnly ++ pathRules true [.write, .link, .lock] data.readOnly ++
    pathRules false [.write, .link, .lock] data.writeOnly ++ pathRules true [.read] data.writeOnly ++
    pathRules false [.read, .write, .link, .lock] data.readWrite ++
    data.ptrace.map ptraceRuleOf ++ networkRules data.network ++
    data.capabilities.map (fun capability => ⟨false, .capability capability⟩) ++
    (if allowMount then mountRules else []) ++ defaultDenyRules

variable {path letters capability name : Str} {after : String} {permissions : List Permission}
  {data : ApparmorData} {rule : PtraceRule} {abstract : AppArmorAbstract}

section

variable (strict : strictPathRegex path = true)
include strict

theorem strictPath_char {char : Char} (member : char ∈ path) :
    isPathChar char = true ∨ char = '\x7b' ∨ char = '\x7d' := by
  obtain ⟨_, atoms, allStrict, rfl⟩ := strictPathRegex_iff.mp strict
  obtain ⟨atom, isAtom, inText⟩ := mem_flatMap.mp member
  have strictAtom := all_eq_true.mp allStrict atom isAtom
  cases atom with
  | char c =>
    rw [mem_singleton.mp inText]
    exact Or.inl strictAtom
  | var name =>
    have named := all_eq_true.mp (Bool.and_eq_true_iff.mp strictAtom).2
    simp only [Atom.text, mem_cons, mem_append, not_mem_nil, or_false] at inText
    rcases inText with rfl | rfl | inName | rfl
    · exact Or.inl (by decide)
    · exact Or.inr (Or.inl rfl)
    · left
      have isName := named char inName
      simp only [isNameChar, Bool.or_eq_true, decide_eq_true_eq] at isName
      rcases isName with alphanum | rfl
      · rw [isPathChar, alphanum, Bool.true_or]
      · decide
    · exact Or.inr (Or.inr rfl)

theorem notMem_strictPath : '"' ∉ path ∧ '\n' ∉ path :=
  ⟨fun quote => absurd (strictPath_char strict quote) (by decide),
    fun newline => absurd (strictPath_char strict newline) (by decide)⟩

theorem readSubject_path (plain : ',' ∉ letters) :
    readSubject (quotePath path ++ ' ' :: (letters ++ [','])) =
      some (.file path (letters.filterMap Permission.ofLetter)) := by
  obtain ⟨tail, rfl⟩ : ∃ tail, path = '/' :: tail := by
    obtain ⟨head, _⟩ := strictPathRegex_iff.mp strict
    exact List.head?_eq_some_iff.mp head
  by_cases spaced : ' ' ∈ '/' :: tail
  · have quoted : quotePath ('/' :: tail) ++ ' ' :: (letters ++ [',']) =
        '"' :: (('/' :: tail) ++ '"' :: ((' ' :: letters) ++ [','])) := by
      rw [quotePath, if_pos (by simpa using spaced)]
      simp
    have comma : ',' ∉ ' ' :: letters := by simp [plain]
    rw [quoted, readSubject, Text.cut_append (notMem_strictPath strict).1, Option.bind_some, readPermissions,
      Text.cut_append comma]
    rfl
  · have unquoted : quotePath ('/' :: tail) ++ ' ' :: (letters ++ [',']) =
        '/' :: (tail ++ ' ' :: (letters ++ [','])) := by
      rw [quotePath, if_neg (by simpa using spaced)]
      simp
    rw [unquoted, readSubject, ← List.cons_append, Text.cut_append spaced, Option.bind_some, readPermissions,
      Text.cut_append plain]
    rfl

theorem quotePath_ne_space (rest : Str) :
    (quotePath path ++ rest).dropWhile (· = ' ') = quotePath path ++ rest ∧
      Text.cutPrefix "deny ".toList (quotePath path ++ rest) = none := by
  obtain ⟨tail, rfl⟩ : ∃ tail, path = '/' :: tail := by
    obtain ⟨head, _⟩ := strictPathRegex_iff.mp strict
    exact List.head?_eq_some_iff.mp head
  unfold quotePath
  split <;> exact ⟨rfl, rfl⟩

theorem notMem_quotePath : '\n' ∉ quotePath path := by
  unfold quotePath
  split <;> simp [notMem_strictPath strict]

end

/-- Which letters stand behind a path, and what they mean. -/
structure Letters (after : String) (permissions : List Permission) (letters : Str) : Prop where
  text : after.toList = ' ' :: (letters ++ [','])
  plain : ',' ∉ letters
  meaning : letters.filterMap Permission.ofLetter = permissions

def pathStart : Bool → String
  | true => "  deny "
  | false => "  "

/-- The line for a path is read as the rule it was written for. -/
theorem readLine_path {deny : Bool} (strict : strictPathRegex path = true)
    (lettered : Letters after permissions letters) :
    readLine ((pathStart deny).toList ++ quotePath path ++ after.toList) = some ⟨deny, .file path permissions⟩ := by
  have subject : readSubject (quotePath path ++ after.toList) = some (.file path permissions) := by
    rw [lettered.text, readSubject_path strict lettered.plain, lettered.meaning]
  obtain ⟨noSpace, noDeny⟩ := quotePath_ne_space strict after.toList
  rw [readLine, List.append_assoc]
  cases deny with
  | false =>
    have shape : ("  ".toList ++ (quotePath path ++ after.toList)).dropWhile (· = ' ') =
        quotePath path ++ after.toList := noSpace
    rw [pathStart, shape, noDeny]
    exact congrArg (Option.map _) subject
  | true =>
    have shape : ("  deny ".toList ++ (quotePath path ++ after.toList)).dropWhile (· = ' ') =
        "deny ".toList ++ (quotePath path ++ after.toList) := rfl
    rw [pathStart, shape, Text.cutPrefix_append]
    exact congrArg (Option.map _) subject

theorem ptraceAccess_plain {access : Str} (member : access ∈ ptraceAccess) :
    ')' ∉ access ∧ ',' ∉ access ∧ '\n' ∉ access ∧ access.filter (· ≠ ' ') = access := by
  revert access
  decide

theorem ptracePeer_char {peer : Str} (isPeer : ptracePeerRegex peer = true) {char : Char} (member : char ∈ peer) :
    (Atom.char char).isPeer = true ∨ char ∈ (Atom.var "profile_name".toList).text := by
  obtain ⟨atoms, read, allPeer⟩ := Option.any_eq_true _ _ |>.mp (Bool.and_eq_true_iff.mp isPeer).2
  obtain rfl := writeAtoms_of_readAtoms read
  obtain ⟨atom, isAtom, inText⟩ := List.mem_flatMap.mp member
  have peerAtom := List.all_eq_true.mp allPeer atom isAtom
  cases atom with
  | char c =>
    rw [List.mem_singleton.mp inText]
    exact Or.inl peerAtom
  | var name =>
    obtain rfl : name = "profile_name".toList := of_decide_eq_true peerAtom
    exact Or.inr inText

theorem ptracePeer_plain {peer : Str} (isPeer : ptracePeerRegex peer = true) : ',' ∉ peer ∧ '\n' ∉ peer :=
  ⟨fun comma => absurd (ptracePeer_char isPeer comma) (by decide),
    fun newline => absurd (ptracePeer_char isPeer newline) (by decide)⟩

theorem splitOn_access {access : List Str} (some' : access ≠ []) (valid : ∀ word ∈ access, word ∈ ptraceAccess) :
    ((", ".toList.intercalate access).filter (· ≠ ' ')).splitOn ',' = access := by
  rw [Text.filter_intercalate fun word member => (ptraceAccess_plain (valid word member)).2.2.2]
  exact List.splitOn_intercalate ',' (fun word member => (ptraceAccess_plain (valid word member)).2.1) some'

theorem readLine_ptrace (some' : rule.access ≠ [])
    (valid : ∀ word ∈ rule.access, word ∈ ptraceAccess) (peer : rule.peer = [] ∨ ptracePeerRegex rule.peer = true) :
    readLine (ptraceLine rule) = some (ptraceRuleOf rule) := by
  have parens : ')' ∉ ", ".toList.intercalate rule.access :=
    Text.notMem_intercalate (by decide) fun word member => (ptraceAccess_plain (valid word member)).1
  have keyword : ∀ rest, readLine ("  ptrace ".toList ++ '(' :: rest) =
      ((Text.cut ')' rest).bind readPtraceParts).map (⟨false, ·⟩) := fun _ => rfl
  unfold ptraceLine
  refine (keyword _).trans ?_
  simp only [Text.cut_append parens, Option.bind_some, readPtraceParts, splitOn_access some' valid]
  by_cases none : rule.peer = []
  · rw [if_pos none, ptraceRuleOf, if_pos none]
    rfl
  · have comma := (ptracePeer_plain (peer.resolve_left none)).1
    rw [if_neg none, List.append_assoc, Text.cutPrefix_append, ptraceRuleOf, if_neg none]
    simp only [Text.cut_append comma]
    rfl

theorem notMem_ptraceLine (valid : ∀ word ∈ rule.access, word ∈ ptraceAccess)
    (peer : rule.peer = [] ∨ ptracePeerRegex rule.peer = true) : '\n' ∉ ptraceLine rule := by
  have words : '\n' ∉ ", ".toList.intercalate rule.access :=
    Text.notMem_intercalate (by decide) fun word member => (ptraceAccess_plain (valid word member)).2.2.1
  have peers : '\n' ∉ if rule.peer = [] then [] else " peer=".toList ++ rule.peer := by
    split
    · simp
    · next named => simp [(ptracePeer_plain (peer.resolve_left named)).2]
  unfold ptraceLine
  simp only [List.mem_append, List.mem_cons, not_or]
  exact ⟨by decide, by decide, words, by decide, peers, by decide, by simp⟩

theorem validCapability_plain (member : capability ∈ validCapabilities) :
    ',' ∉ capability ∧ '\n' ∉ capability := by
  revert capability
  unfold validCapabilities
  simp only [List.map_cons, List.map_nil]
  repeat rw [String.toList_ofList]
  decide

theorem readLine_capability (member : capability ∈ validCapabilities) :
    readLine ("  capability ".toList ++ capability ++ ",".toList) = some ⟨false, .capability capability⟩ := by
  have keyword : ∀ rest, readLine ("  capability ".toList ++ rest) =
      ((Text.cut ',' rest).map fun parts => Subject.capability parts.1).map (⟨false, ·⟩) := fun _ => rfl
  rw [append_assoc]
  refine (keyword _).trans ?_
  show ((Text.cut ',' (capability ++ ',' :: [])).map _).map _ = _
  rw [Text.cut_append (validCapability_plain member).1]
  rfl

/-- Capabilities are written as they are checked. -/
theorem capability_valid (valid : (newApparmorData name abstract).Valid)
    (member : capability ∈ (newApparmorData name abstract).capabilities) : capability ∈ validCapabilities := by
  have normal : normalizeCapability capability = capability := by
    unfold newApparmorData ApparmorData.capabilities at member
    cases rules : abstract.capability with
    | none => simp [rules] at member
    | some rules' =>
      obtain ⟨given, _, rfl⟩ : ∃ given ∈ rules'.allowedCapabilities, normalizeCapability given = capability := by
        simpa [rules, normalizeCapabilities] using member
      simp only [normalizeCapability, Text.trimSpace_toLower, Text.trimSpace_trimSpace, Text.toLower_toLower]
  exact normal ▸ valid.capabilities capability member

theorem profileName_whole (valid : name = [] ∨ profileNameChars name = true) : '\n' ∉ name := by
  rcases valid with rfl | isName
  · simp
  · intro newline
    have isChar := all_eq_true.mp (Bool.and_eq_true_iff.mp isName).2 _ newline
    revert isChar
    decide

end SecurityProfiles
