import SecurityProfiles.AppArmor.Read

namespace SecurityProfiles.Syntax

section tokens

inductive Token where
  | word (text : Str)
  | path (text : Str)
  | quoted (text : Str)
  | symbol (char : Char)
  | hash (text : Str)
deriving DecidableEq

def isBlank (char : Char) : Bool := char ∈ [' ', '\t', '\r']

def isSymbol (char : Char) : Bool := char ∈ ['(', ')', '=', '\x7b', '\x7d', ',']

def isWordChar (char : Char) : Bool := char.isAlphanum || char ∈ ['_', '.', '/', '*', '?', '-', '@', '\x7b', '\x7d']

/-- What a path goes on with. A comma is part of it as well if one of these follows. -/
def isIdChar (char : Char) : Bool := char ∉ [' ', '\t', '\r', '"', '!', ',', '\\']

/-- What was read of the token that is not complete. -/
inductive Pending where
  | none
  | word (text : Str)
  | path (text : Str)
  | quoted (text : Str)

/-- A line is read character by character. What follows a hash is not part of the rules, and a quoted text ends on
its line. -/
def lexFrom : Pending → Str → Option (List Token)
  | .none, [] => some []
  | .word text, [] => some [.word text]
  | .path text, [] => some [.path text]
  | .quoted _, [] => none
  | .none, char :: rest =>
    if isBlank char then lexFrom .none rest
    else if isSymbol char then (lexFrom .none rest).map (.symbol char :: ·)
    else if char = '#' then some [.hash rest]
    else if char = '"' then lexFrom (.quoted []) rest
    else if char = '/' ∨ char = '@' then lexFrom (.path [char]) rest
    else if isWordChar char then lexFrom (.word [char]) rest
    else none
  | .word text, char :: rest =>
    if isWordChar char then lexFrom (.word (text ++ [char])) rest
    else if isBlank char then (lexFrom .none rest).map (.word text :: ·)
    else if isSymbol char then (lexFrom .none rest).map (.word text :: .symbol char :: ·)
    else none
  | .path text, char :: rest =>
    if isIdChar char || (char = ',' && rest.head?.any isIdChar) then lexFrom (.path (text ++ [char])) rest
    else if isBlank char then (lexFrom .none rest).map (.path text :: ·)
    else if char = ',' then (lexFrom .none rest).map (.path text :: .symbol ',' :: ·)
    else none
  | .quoted text, char :: rest =>
    if char = '"' then (lexFrom .none rest).map (.quoted text :: ·)
    else if char = '\\' then none
    else lexFrom (.quoted (text ++ [char])) rest

def lex (line : Str) : Option (List Token) := lexFrom .none line

end tokens

section lines

/-- What may stand on a line inside of a profile. -/
inductive Line where
  | comment (text : Str)
  | included (file : Str)
  | rule (rule : ProfileRule) (comment : Option Str)
deriving DecidableEq

inductive Entry where
  | line (line : Line)
  | header (name : Str) (flags : List Str)
  | close
deriving DecidableEq

/-- The file in angle brackets that follows an include. -/
def readIncluded : Str → Option Str
  | '<' :: rest =>
    match Text.cut '>' rest with
    | some (file, []) => some file
    | _ => none
  | _ => none

def readHash (text : Str) : Option Line :=
  match Text.cutPrefix "include".toList text with
  | some rest => (readIncluded (rest.dropWhile isBlank)).map .included
  | none => some (.comment text)

/-- The permissions behind a path. Programs are executed with a qualifier where that is allowed, and without one
where it is denied. -/
def readModes (deny : Bool) : Str → Option (List Permission)
  | [] => some []
  | 'i' :: 'x' :: rest => if deny then none else (readModes deny rest).map (.exec :: ·)
  | 'x' :: rest => if deny then (readModes deny rest).map (.exec :: ·) else none
  | letter :: rest => (Permission.ofLetter letter).bind fun permission =>
    (readModes deny rest).map (permission :: ·)

/-- The words up to the closing parenthesis, with commas between them, and what follows. -/
def readWords : List Token → Option (List Str × List Token)
  | .word text :: .symbol ')' :: rest => some ([text], rest)
  | .word text :: .symbol ',' :: rest => (readWords rest).map fun parts => (text :: parts.1, parts.2)
  | _ => none

def readName : Token → Option Str
  | .word text => some text
  | .path text => some text
  | _ => none

def readAccess (words : List Str) : Option (List PtracePermission) :=
  if ∀ word ∈ words, PtracePermission.ofWord word ≠ [] then some (words.flatMap PtracePermission.ofWord) else none

def readPeer : List Token → Option (Option Str)
  | [.symbol ','] => some none
  | [.word label, .symbol '=', name, .symbol ','] =>
    if label = "peer".toList then (readName name).map some else none
  | _ => none

def readPtraceRule (tokens : List Token) : Option Subject := do
  let (words, rest) ← readWords tokens
  let permissions ← readAccess words
  let peer ← readPeer rest
  pure (.ptrace permissions peer)

def readSubject (deny : Bool) : List Token → Option Subject
  | [.path path, .word modes, .symbol ','] => (readModes deny modes).map (.file path)
  | [.quoted path, .word modes, .symbol ','] => (readModes deny modes).map (.file path)
  | [.word operation, .symbol ','] =>
    if operation ∈ ["mount", "remount", "umount"].map String.toList then some (.mount operation) else none
  | .word keyword :: .symbol '(' :: rest => if keyword = "ptrace".toList then readPtraceRule rest else none
  | [.word keyword, .word value, .symbol ','] =>
    if keyword = "network".toList then some (.network value)
    else if keyword = "capability".toList then some (.capability value)
    else none
  | _ => none

def readRule : List Token → Option ProfileRule
  | .word keyword :: rest =>
    if keyword = "deny".toList then (readSubject true rest).map (⟨true, ·⟩)
    else (readSubject false (.word keyword :: rest)).map (⟨false, ·⟩)
  | tokens => (readSubject false tokens).map (⟨false, ·⟩)

def readRuleLine (tokens : List Token) : Option Line :=
  match tokens.getLast? with
  | some (.hash text) => (readRule tokens.dropLast).map (.rule · (some text))
  | _ => (readRule tokens).map (.rule · none)

def readHeader : List Token → Option Entry
  | name :: .word keyword :: .symbol '=' :: .symbol '(' :: rest => do
      let name ← readName name
      let (flags, rest) ← readWords rest
      if keyword = "flags".toList ∧ rest = [.symbol '\x7b'] then some (.header name flags) else none
  | _ => none

/-- What a line that is not blank says. -/
def readEntry : List Token → Option Entry
  | [.hash text] => (readHash text).map .line
  | [.symbol '\x7d'] => some .close
  | .word keyword :: rest =>
    if keyword = "profile".toList then readHeader rest else (readRuleLine (.word keyword :: rest)).map .line
  | tokens => (readRuleLine tokens).map .line

end lines

section profiles

/-- What a text defines, with what stands before it. -/
structure ParsedProfile where
  preamble : List Line
  name : Str
  flags : List Str
  body : List Line

def entryOf (line : Str) : Option (Option Entry) :=
  (lex line).bind fun
    | [] => some none
    | token :: tokens => (readEntry (token :: tokens)).map some

def readEntries : List Str → Option (List Entry)
  | [] => some []
  | line :: rest => (entryOf line).bind fun entry => (readEntries rest).map (entry.toList ++ ·)

/-- The lines up to the closing brace, which is the last one. -/
def readBody : List Entry → Option (List Line)
  | [.close] => some []
  | .line line :: rest => (readBody rest).map (line :: ·)
  | _ => none

/-- No rule stands before the profile. -/
def readEnclosed : List Entry → Option ParsedProfile
  | .header name flags :: rest => (readBody rest).map (⟨[], name, flags, ·⟩)
  | .line (.rule _ _) :: _ => none
  | .line line :: rest => (readEnclosed rest).map fun profile => { profile with
    preamble := line :: profile.preamble }
  | _ => none

def parseProfile (text : Str) : Option ParsedProfile := (readEntries (text.splitOn '\n')).bind readEnclosed

end profiles

section lex

variable {run rest : Str}

theorem lexFrom_path_run (ids : ∀ char ∈ run, isIdChar char = true) (text rest : Str) :
    lexFrom (.path text) (run ++ rest) = lexFrom (.path (text ++ run)) rest := by
  induction run generalizing text with
  | nil => simp
  | cons char run ih =>
    obtain ⟨isId, others⟩ := List.forall_mem_cons.mp ids
    rw [List.cons_append, lexFrom, isId, Bool.true_or, if_pos rfl, ih others, List.append_assoc]
    rfl

theorem lexFrom_word_run (areWord : ∀ char ∈ run, isWordChar char = true) (text rest : Str) :
    lexFrom (.word text) (run ++ rest) = lexFrom (.word (text ++ run)) rest := by
  induction run generalizing text with
  | nil => simp
  | cons char run ih =>
    obtain ⟨isWord, others⟩ := List.forall_mem_cons.mp areWord
    rw [List.cons_append, lexFrom, if_pos isWord, ih others, List.append_assoc]
    rfl

theorem lexFrom_quoted_run (plain : ∀ char ∈ run, char ≠ '"' ∧ char ≠ '\\') (text rest : Str) :
    lexFrom (.quoted text) (run ++ '"' :: rest) = (lexFrom .none rest).map (.quoted (text ++ run) :: ·) := by
  induction run generalizing text with
  | nil => simp [lexFrom]
  | cons char run ih =>
    obtain ⟨isPlain, others⟩ := List.forall_mem_cons.mp plain
    rw [List.cons_append, lexFrom, if_neg isPlain.1, if_neg isPlain.2, ih others, List.append_assoc]
    rfl

theorem isIdChar_of_isWordChar {char : Char} (isWord : isWordChar char = true) : isIdChar char = true := by
  by_contra other
  simp only [isIdChar, decide_eq_true_eq, not_not] at other
  revert isWord
  simp only [List.mem_cons, List.not_mem_nil, or_false] at other
  rcases other with rfl | rfl | rfl | rfl | rfl | rfl | rfl <;> decide

/-- What ends a token: a blank, or the comma at the end of a line. -/
inductive Ends : Str → Str → List Token → Prop where
  | blank (rest : Str) : Ends (' ' :: rest) rest []
  | comma : Ends [','] [] [.symbol ',']

section

variable {ending : Str} {symbols : List Token} (ends : Ends ending rest symbols)
include ends

theorem lexFrom_path_ends (text : Str) :
    lexFrom (.path text) ending = (lexFrom .none rest).map (.path text :: symbols ++ ·) := by
  cases ends with
  | blank rest =>
    rw [lexFrom]
    rfl
  | comma => rfl

theorem lexFrom_word_ends (text : Str) :
    lexFrom (.word text) ending = (lexFrom .none rest).map (.word text :: symbols ++ ·) := by
  cases ends with
  | blank rest =>
    rw [lexFrom]
    rfl
  | comma => rfl

end

def nameToken : Str → Token
  | [] => .word []
  | char :: rest => if char = '/' ∨ char = '@' then .path (char :: rest) else .word (char :: rest)

@[simp] theorem readName_nameToken (text : Str) : readName (nameToken text) = some text := by
  cases text with
  | nil => rfl
  | cons char rest =>
    rw [nameToken]
    split <;> rfl

/-- A name is read as one token, a word or a path. The symbols that end it are read on their own. -/
theorem lexFrom_name {ending name : Str} {symbols : List Token} (named : name ≠ [])
    (areWord : ∀ char ∈ name, isWordChar char = true) (start : name.head?.all fun char => !isSymbol char)
    (ends : Ends ending rest symbols) :
    lexFrom .none (name ++ ending) = (lexFrom .none rest).map (nameToken name :: symbols ++ ·) := by
  cases name with
  | nil => exact absurd rfl named
  | cons char name =>
    obtain ⟨isWord, others⟩ := List.forall_mem_cons.mp areWord
    have isId := isIdChar_of_isWordChar isWord
    have notSymbol : isSymbol char = false := by simpa using start
    have notBlank : isBlank char = false := by
      simp only [isIdChar, decide_eq_true_eq, List.mem_cons, not_or] at isId
      simp [isBlank, isId]
    have notQuote : char ≠ '"' := by
      rintro rfl
      revert isWord
      decide
    have notHash : char ≠ '#' := by
      rintro rfl
      revert isWord
      decide
    rw [List.cons_append, lexFrom, notBlank, notSymbol, if_neg Bool.false_ne_true, if_neg Bool.false_ne_true,
      if_neg notHash, if_neg notQuote, nameToken]
    split
    · rw [lexFrom_path_run fun char member => isIdChar_of_isWordChar (others char member), lexFrom_path_ends ends]
      rfl
    · rw [lexFrom_word_run others, lexFrom_word_ends ends]
      rfl

end lex

section entries

theorem readEntries_append (first second : List Str) :
    readEntries (first ++ second) =
      (readEntries first).bind fun entries => (readEntries second).map (entries ++ ·) := by
  induction first with
  | nil => simp [readEntries]
  | cons line first ih =>
    rw [List.cons_append, readEntries, readEntries, ih]
    cases entryOf line with
    | none => rfl
    | some entry =>
      cases readEntries first with
      | none => rfl
      | some entries => simp [Function.comp_def]

theorem readBody_lines (lines : List Line) : readBody (lines.map .line ++ [.close]) = some lines := by
  induction lines with
  | nil => rfl
  | cons line lines ih =>
    rw [List.map_cons, List.cons_append, readBody, ih]
    rfl

end entries

end SecurityProfiles.Syntax
