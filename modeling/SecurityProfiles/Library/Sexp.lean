import SecurityProfiles.Library.Text

inductive Sexp where
  | word (text : List Char)
  | list (items : List Sexp)

namespace Sexp

open List

inductive Token where
  | «open»
  | close
  | word (text : List Char)
deriving DecidableEq

/-- Parentheses and white space end a word. -/
def isDelimiter (char : Char) : Bool := char = '(' || char = ')' || Text.isSpace char

/-- The word that was read so far, if it has any characters. -/
def flush : List Char → List Token
  | [] => []
  | char :: rest => [.word (char :: rest)]

def lexFrom (pending : List Char) : List Char → List Token
  | [] => flush pending
  | char :: rest =>
    if char = '(' then flush pending ++ .open :: lexFrom [] rest
    else if char = ')' then flush pending ++ .close :: lexFrom [] rest
    else if Text.isSpace char then flush pending ++ lexFrom [] rest
    else lexFrom (pending ++ [char]) rest

def lex (text : List Char) : List Token := lexFrom [] text

/-- The list that is open, in reverse, and those around it. -/
def readStep : List (List Sexp) → Token → Option (List (List Sexp))
  | stack, .open => some ([] :: stack)
  | current :: stack, .word text => some ((.word text :: current) :: stack)
  | current :: outer :: stack, .close => some ((.list current.reverse :: outer) :: stack)
  | _, _ => none

def readTokens (tokens : List Token) : Option (List Sexp) :=
  match tokens.foldlM readStep [[]] with
  | some [items] => some items.reverse
  | _ => none

def read (text : List Char) : Option (List Sexp) := readTokens (lex text)

def tokens : Sexp → List Token
  | .word text => [.word text]
  | .list items => .open :: items.flatMap tokens ++ [.close]

section lex

variable {char : Char} {word rest : List Char}

@[simp] theorem lex_nil : lex [] = [] := rfl

@[simp] theorem lex_open (rest : List Char) : lex ('(' :: rest) = .open :: lex rest := by
  simp [lex, lexFrom, flush]

@[simp] theorem lex_close (rest : List Char) : lex (')' :: rest) = .close :: lex rest := by
  simp [lex, lexFrom, flush]

theorem lex_space (space : Text.isSpace char = true) (rest : List Char) : lex (char :: rest) = lex rest := by
  have notOpen : char ≠ '(' := by
    rintro rfl
    exact absurd space (by decide)
  have notClose : char ≠ ')' := by
    rintro rfl
    exact absurd space (by decide)
  simp [lex, lexFrom, flush, notOpen, notClose, space]

theorem lexFrom_word (plain : ∀ char ∈ word, isDelimiter char = false) (pending rest : List Char) :
    lexFrom pending (word ++ rest) = lexFrom (pending ++ word) rest := by
  induction word generalizing pending with
  | nil => simp
  | cons char word ih =>
    obtain ⟨plainFirst, plainRest⟩ := forall_mem_cons.mp plain
    simp only [isDelimiter, Bool.or_eq_false_iff, decide_eq_false_iff_not] at plainFirst
    obtain ⟨⟨notOpen, notClose⟩, notSpace⟩ := plainFirst
    rw [cons_append, lexFrom, if_neg notOpen, if_neg notClose, if_neg (Bool.eq_false_iff.mp notSpace),
      ih plainRest, append_assoc]
    rfl

theorem lexFrom_delimiter (ends : isDelimiter char = true) (pending rest : List Char) :
    lexFrom pending (char :: rest) = flush pending ++ lex (char :: rest) := by
  simp only [isDelimiter, Bool.or_eq_true, decide_eq_true_eq] at ends
  unfold lex
  rw [lexFrom, lexFrom]
  split
  · rfl
  · split
    · rfl
    · next notOpen notClose =>
        have space : Text.isSpace char = true := by
          rcases ends with (isOpen | isClose) | space
          · exact absurd isOpen notOpen
          · exact absurd isClose notClose
          · exact space
        rw [if_pos space, if_pos space]
        rfl

theorem lexFrom_append (ends : isDelimiter char = true) (pending text rest : List Char) :
    lexFrom pending (text ++ [char] ++ rest) = lexFrom pending (text ++ [char]) ++ lex rest := by
  induction text generalizing pending with
  | nil =>
    rw [nil_append, singleton_append, lexFrom_delimiter ends, lexFrom_delimiter ends, append_assoc]
    simp only [isDelimiter, Bool.or_eq_true, decide_eq_true_eq] at ends
    rcases ends with (rfl | rfl) | space
    · rw [lex_open, lex_open, lex_nil, singleton_append]
    · rw [lex_close, lex_close, lex_nil, singleton_append]
    · rw [lex_space space, lex_space space, lex_nil, nil_append]
  | cons first text ih =>
    simp only [cons_append, lexFrom]
    split
    · rw [ih, append_assoc, cons_append]
    split
    · rw [ih, append_assoc, cons_append]
    split
    · rw [ih, append_assoc]
    · exact ih _

/-- What follows a delimiter is read by itself. -/
theorem lex_append {text : List Char} (ends : text.getLast?.any isDelimiter = true) (rest : List Char) :
    lex (text ++ rest) = lex text ++ lex rest := by
  obtain ⟨char, isLast, delimits⟩ := Option.any_eq_true _ _ |>.mp ends
  obtain ⟨start, rfl⟩ := getLast?_eq_some_iff.mp isLast
  exact lexFrom_append delimits [] start rest

/-- The characters are those of one word. -/
structure IsWord (word : List Char) : Prop where
  named : word ≠ []
  plain : ∀ char ∈ word, isDelimiter char = false

theorem IsWord.append {first second : List Char} (isFirst : IsWord first) (isSecond : IsWord second) :
    IsWord (first ++ second) := by
  refine ⟨by simp [isFirst.named], fun char member => ?_⟩
  rcases mem_append.mp member with inFirst | inSecond
  · exact isFirst.plain char inFirst
  · exact isSecond.plain char inSecond

theorem lex_word (isWord : IsWord word) (ends : rest.head?.any isDelimiter = true) :
    lex (word ++ rest) = .word word :: lex rest := by
  cases rest with
  | nil => cases ends
  | cons char rest =>
    rw [lex, lexFrom_word isWord.plain, nil_append, lexFrom_delimiter ends]
    cases word with
    | nil => exact absurd rfl isWord.named
    | cons first others => rfl

/-- Words with a space between them. -/
theorem lex_words {words : List (List Char)} (areWords : ∀ word ∈ words, IsWord word)
    (ends : rest.head?.any isDelimiter = true) :
    lex ([' '].intercalate words ++ rest) = words.map .word ++ lex rest := by
  induction words with
  | nil => rfl
  | cons word words ih =>
    obtain ⟨isWord, areOthers⟩ := forall_mem_cons.mp areWords
    cases words with
    | nil =>
      rw [intercalate_singleton, lex_word isWord ends]
      rfl
    | cons next words =>
      rw [intercalate_cons_cons, append_assoc, append_assoc, singleton_append,
        lex_word isWord rfl, lex_space rfl, ih areOthers]
      rfl

end lex

section spells

variable {first second : List Char} {tokensFirst tokensSecond : List Token}

/-- The text spells the tokens, whatever stands before and after it. -/
structure Spells (text : List Char) (tokens : List Token) : Prop where
  starts : text.head?.any isDelimiter = true
  ends : text.getLast?.any isDelimiter = true
  lexed : lex text = tokens

theorem Spells.head_append (spells : Spells first tokensFirst) (rest : List Char) :
    (first ++ rest).head?.any isDelimiter = true := by
  have starts := spells.starts
  cases first with
  | nil => cases starts
  | cons char others => exact starts

theorem Spells.getLast_append (spells : Spells second tokensSecond) (before : List Char) :
    (before ++ second).getLast?.any isDelimiter = true := by
  have ends := spells.ends
  cases isLast : second.getLast? with
  | none =>
    rw [isLast] at ends
    cases ends
  | some char =>
    rw [getLast?_append, isLast, Option.some_or, ← isLast]
    exact ends

section

variable (spellsFirst : Spells first tokensFirst)
include spellsFirst

theorem Spells.append (spellsSecond : Spells second tokensSecond) :
    Spells (first ++ second) (tokensFirst ++ tokensSecond) where
  starts := spellsFirst.head_append second
  ends := spellsSecond.getLast_append first
  lexed := by rw [lex_append spellsFirst.ends, spellsFirst.lexed, spellsSecond.lexed]

/-- A word between two texts. -/
theorem Spells.word {word : List Char} (isWord : IsWord word) (spellsSecond : Spells second tokensSecond) :
    Spells (first ++ word ++ second) (tokensFirst ++ .word word :: tokensSecond) where
  starts := by
    rw [append_assoc]
    exact spellsFirst.head_append (word ++ second)
  ends := spellsSecond.getLast_append (first ++ word)
  lexed := by
    rw [append_assoc, lex_append spellsFirst.ends, lex_word isWord spellsSecond.starts, spellsFirst.lexed,
      spellsSecond.lexed]

theorem Spells.words {words : List (List Char)}
    (areWords : ∀ word ∈ words, IsWord word) (spellsSecond : Spells second tokensSecond) :
    Spells (first ++ [' '].intercalate words ++ second) (tokensFirst ++ (words.map .word ++ tokensSecond)) where
  starts := by
    rw [append_assoc]
    exact spellsFirst.head_append _
  ends := spellsSecond.getLast_append _
  lexed := by
    rw [append_assoc, lex_append spellsFirst.ends, lex_words areWords spellsSecond.starts, spellsFirst.lexed,
      spellsSecond.lexed]

/-- A text and any number of further ones. -/
theorem Spells.flatMap {α : Type} {line : α → List Char} {spelled : α → List Token} {inputs : List α}
    (each : ∀ input ∈ inputs, Spells (line input) (spelled input)) :
    Spells (first ++ inputs.flatMap line) (tokensFirst ++ inputs.flatMap spelled) := by
  induction inputs generalizing first tokensFirst with
  | nil =>
    rw [flatMap_nil, flatMap_nil, append_nil, append_nil]
    exact spellsFirst
  | cons input inputs ih =>
    obtain ⟨spellsInput, others⟩ := forall_mem_cons.mp each
    rw [flatMap_cons, flatMap_cons, ← append_assoc, ← append_assoc]
    exact ih (spellsFirst.append spellsInput) others

end

end spells

section read

theorem foldlM_flatMap_tokens {items : List Sexp}
    (each : ∀ item ∈ items, ∀ current stack, (tokens item).foldlM readStep (current :: stack) =
      some ((item :: current) :: stack))
    (current : List Sexp) (stack : List (List Sexp)) :
    (items.flatMap tokens).foldlM readStep (current :: stack) =
      some ((items.reverse ++ current) :: stack) := by
  induction items generalizing current with
  | nil => rfl
  | cons item items ih =>
    obtain ⟨first, others⟩ := forall_mem_cons.mp each
    rw [flatMap_cons, foldlM_append, first current stack, reverse_cons, append_assoc]
    exact ih others (item :: current)

theorem foldlM_tokens (item : Sexp) (current : List Sexp) (stack : List (List Sexp)) :
    (tokens item).foldlM readStep (current :: stack) =
      some ((item :: current) :: stack) := by
  match item with
  | .word text => simp [tokens, readStep]
  | .list items =>
    have each : ∀ item ∈ items, ∀ current stack, (tokens item).foldlM readStep (current :: stack) =
        some ((item :: current) :: stack) := fun item member => foldlM_tokens item
    have inner := foldlM_flatMap_tokens each [] (current :: stack)
    rw [tokens, cons_append, foldlM_cons]
    change (items.flatMap tokens ++ [Token.close]).foldlM readStep ([] :: current :: stack) = _
    rw [foldlM_append, inner]
    simp [readStep]
termination_by sizeOf item
decreasing_by
  have smaller := sizeOf_lt_of_mem member
  simp only [list.sizeOf_spec]
  omega

theorem read_eq_some {text : List Char} {item : Sexp} (spelled : lex text = tokens item) :
    read text = some [item] := by
  rw [read, readTokens, spelled, foldlM_tokens]
  rfl

end read

end Sexp
