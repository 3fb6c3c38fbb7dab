import Mathlib.Algebra.Group.Int.Defs
import Mathlib.Algebra.Group.Nat.Defs
import Mathlib.Data.List.Sort
import Mathlib.Data.List.Lex
import Mathlib.Data.Char
import Mathlib.Data.List.DropRight

namespace Text

open List

variable {α : Type}

/-- `compact` drops every element that equals the one after it. -/
def compact [DecidableEq α] : List α → List α
  | [] => []
  | [single] => [single]
  | first :: second :: rest =>
    if first = second then compact (second :: rest) else first :: compact (second :: rest)

variable {element stop : α} {elements first second text rest separator word : List α} {char : Char}
  {words : List (List α)} {number : Nat}

theorem mem_compact [DecidableEq α] (elements : List α) :
    element ∈ compact elements ↔ element ∈ elements := by
  fun_induction compact elements with
  | case1 => rfl
  | case2 single => rfl
  | case3 second rest ih => rw [ih, mem_cons, mem_cons, mem_cons, or_self_left]
  | case4 first second rest different ih => rw [mem_cons, ih, ← mem_cons]

def sort [LinearOrder α] (elements : List α) : List α := elements.insertionSort (· ≤ ·)

@[simp] theorem mem_sort [LinearOrder α] :
    element ∈ sort elements ↔ element ∈ elements :=
  mem_insertionSort _

@[simp] theorem mem_compact_sort [LinearOrder α] [DecidableEq α] :
    element ∈ compact (sort elements) ↔ element ∈ elements := by
  rw [mem_compact, mem_sort]

theorem pairwise_compact [LinearOrder α] [DecidableEq α] (sorted : elements.Pairwise (· ≤ ·)) :
    (compact elements).Pairwise (· < ·) := by
  fun_induction compact elements with
  | case1 => exact .nil
  | case2 single => exact pairwise_singleton _ _
  | case3 second rest ih => exact ih sorted.of_cons
  | case4 first second rest different ih =>
    refine pairwise_cons.mpr ⟨fun element member => ?_, ih sorted.of_cons⟩
    have below := rel_of_pairwise_cons sorted mem_cons_self
    rcases mem_cons.mp ((mem_compact _).mp member) with rfl | later
    · exact lt_of_le_of_ne below different
    · exact (lt_of_le_of_ne below different).trans_le (rel_of_pairwise_cons sorted.of_cons later)

theorem eq_of_pairwise_lt [LinearOrder α] (firstSorted : first.Pairwise (· < ·))
    (secondSorted : second.Pairwise (· < ·)) (same : ∀ element, element ∈ first ↔ element ∈ second) :
    first = second := by
  have perm : first.Perm second :=
    (perm_ext_iff_of_nodup (firstSorted.imp ne_of_lt) (secondSorted.imp ne_of_lt)).mpr same
  exact perm.eq_of_pairwise (fun _ _ _ _ less more => absurd more less.asymm) firstSorted secondSorted

theorem pairwise_compact_sort [LinearOrder α] [DecidableEq α] (elements : List α) :
    (compact (sort elements)).Pairwise (· < ·) :=
  pairwise_compact (pairwise_insertionSort _ _)

theorem nodup_compact_sort [LinearOrder α] [DecidableEq α] (elements : List α) : (compact (sort elements)).Nodup :=
  (pairwise_compact_sort elements).imp ne_of_lt

/-- Sorting elements that are there once leaves none before an equal one. -/
theorem pairwise_sort [LinearOrder α] (nodup : elements.Nodup) : (sort elements).Pairwise (· < ·) := by
  have sorted : (sort elements).Pairwise (· ≤ ·) := pairwise_insertionSort _ _
  have once : (sort elements).Nodup := (perm_insertionSort _ _).nodup_iff.mpr nodup
  exact sorted.imp₂ (fun _ _ below different => lt_of_le_of_ne below different) once

theorem compact_sort_congr [LinearOrder α] [DecidableEq α]
    (same : ∀ element, element ∈ first ↔ element ∈ second) : compact (sort first) = compact (sort second) := by
  refine eq_of_pairwise_lt (pairwise_compact_sort first) (pairwise_compact_sort second) fun element => ?_
  rw [mem_compact_sort, mem_compact_sort, same]

/-- A loop that adds what it finds, unless it is held already, holds each found element once in the end. -/
theorem foldl_addNew {β : Type} [BEq α] [LawfulBEq α] {add : List α → β → List α} {find : β → Option α}
    (step : ∀ held input, add held input = (find input).elim held fun new =>
      if new ∈ held then held else held ++ [new])
    (inputs : List β) (held : List α) (nodup : held.Nodup) :
    (inputs.foldl add held).Nodup ∧ ∀ element, element ∈ inputs.foldl add held ↔
      element ∈ held ∨ ∃ input ∈ inputs, find input = some element := by
  induction inputs generalizing held with
  | nil => exact ⟨nodup, fun element => by simp⟩
  | cons first rest ih =>
    have one : (add held first).Nodup ∧
        ∀ element, element ∈ add held first ↔ element ∈ held ∨ find first = some element := by
      rw [step]
      cases found : find first with
      | none => exact ⟨nodup, fun element => by simp⟩
      | some new =>
        rw [Option.elim_some]
        split
        · next there =>
            refine ⟨nodup, fun element => ⟨Or.inl, fun member => member.elim id fun same => ?_⟩⟩
            exact Option.some.inj same ▸ there
        · next absent =>
            refine ⟨nodup_append.mpr ⟨nodup, nodup_singleton _, ?_⟩, fun element => ?_⟩
            · intro element member other isNew same
              exact absent (mem_singleton.mp isNew ▸ same ▸ member)
            · rw [mem_append, mem_singleton, Option.some_inj, eq_comm]
    obtain ⟨nodupRest, members⟩ := ih (add held first) one.1
    refine ⟨nodupRest, fun element => ?_⟩
    rw [foldl_cons, members, one.2, exists_mem_cons_iff, or_assoc]

/-- Some part of the list is the given one. -/
def contains [DecidableEq α] (part : List α) : List α → Bool
  | [] => part.isEmpty
  | first :: rest => part.isPrefixOf (first :: rest) || contains part rest

theorem contains_iff [DecidableEq α] {part : List α} : contains part text = true ↔ part <:+: text := by
  induction text with
  | nil => simp [contains]
  | cons first rest ih => rw [contains, Bool.or_eq_true, ih, isPrefixOf_iff_prefix, infix_cons_iff]

/-- Small letters for capital ones. Two characters outside of ASCII have a small letter within it. -/
def lowerChar (char : Char) : Char :=
  if char = Char.ofNat 0x212A then 'k'
  else if char = Char.ofNat 0x130 then 'i'
  else char.toLower

def toLower (text : List Char) : List Char := text.map lowerChar

theorem charToLower_cases (char : Char) :
    char.toLower = char ∨ (97 ≤ char.toLower.toNat ∧ char.toLower.toNat ≤ 122) := by
  unfold Char.toLower
  split
  · next capital =>
      right
      simp [UInt32.le_iff_toNat_le] at capital ⊢
      omega
  · exact Or.inl rfl

theorem charToLower_of_le (small : 97 ≤ char.toNat) : char.toLower = char := by
  unfold Char.toLower
  rw [dif_neg]
  simp [UInt32.le_iff_toNat_le]
  omega

theorem lowerChar_lowerChar (char : Char) : lowerChar (lowerChar char) = lowerChar char := by
  unfold lowerChar
  split
  · decide
  split
  · decide
  next notKelvin notDotted =>
    rcases charToLower_cases char with same | ⟨low, high⟩
    · rw [same, if_neg notKelvin, if_neg notDotted, same]
    · have ascii : ∀ other : Char, 122 < other.toNat → char.toLower ≠ other := by
        intro other above same
        rw [same] at high
        omega
      rw [if_neg (ascii _ (by decide)), if_neg (ascii _ (by decide)), charToLower_of_le low]

@[simp] theorem toLower_toLower (text : List Char) : toLower (toLower text) = toLower text := by
  simp [toLower, Function.comp_def, lowerChar_lowerChar]

/-- White space as the standard library has it. -/
def isSpace (char : Char) : Bool :=
  char.toNat ∈ [0x09, 0x0a, 0x0b, 0x0c, 0x0d, 0x20, 0x85, 0xa0, 0x1680, 0x2028, 0x2029, 0x202f, 0x205f, 0x3000] ||
    (0x2000 ≤ char.toNat && char.toNat ≤ 0x200a)

def trimSpace (text : List Char) : List Char := (text.dropWhile isSpace).rdropWhile isSpace

theorem isSpace_eq_false (low : 33 ≤ char.toNat) (high : char.toNat ≤ 126) : isSpace char = false := by
  simp [isSpace]
  omega

theorem isSpace_lowerChar (char : Char) : isSpace (lowerChar char) = isSpace char := by
  unfold lowerChar
  split
  · next same => rw [same]; decide
  split
  · next same => rw [same]; decide
  unfold Char.toLower
  split
  · next capital =>
      simp [UInt32.le_iff_toNat_le] at capital
      have before : isSpace char = false := isSpace_eq_false (by omega) (by omega)
      rw [before]
      apply isSpace_eq_false <;>
        · simp
          omega
  · rfl

theorem trimSpace_toLower (text : List Char) : trimSpace (toLower text) = toLower (trimSpace text) := by
  have same : isSpace ∘ lowerChar = isSpace := funext isSpace_lowerChar
  simp only [trimSpace, toLower, List.rdropWhile, dropWhile_map, ← map_reverse, same]

theorem trimSpace_trimSpace (text : List Char) : trimSpace (trimSpace text) = trimSpace text := by
  unfold trimSpace
  have head := head?_dropWhile_not isSpace text
  revert head
  generalize text.dropWhile isSpace = rest
  intro head
  have kept : (rest.rdropWhile isSpace).dropWhile isSpace = rest.rdropWhile isSpace := by
    obtain ⟨dropped, same⟩ := rdropWhile_prefix isSpace rest
    cases shape : rest.rdropWhile isSpace with
    | nil => rfl
    | cons first others =>
      rw [← same, shape] at head
      rw [dropWhile_cons, if_neg]
      simpa using head
  rw [kept, rdropWhile_idempotent]

/-- The text before and after the first of the given characters. -/
def cut (stop : Char) : List Char → Option (List Char × List Char)
  | [] => none
  | char :: rest =>
    if char = stop then some ([], rest) else (cut stop rest).map fun parts => (char :: parts.1, parts.2)

theorem cut_append {stop : Char} {before : List Char} (absent : stop ∉ before) (after : List Char) :
    cut stop (before ++ stop :: after) = some (before, after) := by
  induction before with
  | nil => simp [cut]
  | cons char before ih =>
    obtain ⟨different, absentLater⟩ := not_or.mp (mem_cons.not.mp absent)
    rw [cons_append, cut, if_neg (Ne.symm different), ih absentLater]
    rfl

theorem length_cut {stop : Char} {label before after : List Char} (isCut : cut stop label = some (before, after)) :
    after.length < label.length := by
  induction label generalizing before after with
  | nil => cases isCut
  | cons char rest ih =>
    rw [cut] at isCut
    split at isCut
    · cases isCut
      exact Nat.lt_succ_self _
    · obtain ⟨parts, isRest, same⟩ := Option.map_eq_some_iff.mp isCut
      cases same
      exact Nat.lt_succ_of_lt (ih isRest)

theorem cut_eq_none {stop : Char} {text : List Char} : cut stop text = none ↔ stop ∉ text := by
  induction text with
  | nil => simp [cut]
  | cons char rest ih =>
    rw [cut]
    split
    · next same => simp [same]
    · next other =>
        rw [Option.map_eq_none_iff, ih, mem_cons, not_or]
        exact ⟨fun absent => ⟨Ne.symm other, absent⟩, And.right⟩

def cutPrefix [DecidableEq α] (start text : List α) : Option (List α) :=
  if start.isPrefixOf text then some (text.drop start.length) else none

@[simp] theorem cutPrefix_append [DecidableEq α] (start rest : List α) :
    cutPrefix start (start ++ rest) = some rest := by
  simp [cutPrefix]

theorem cutPrefix_eq_some [DecidableEq α] {start : List α} :
    cutPrefix start text = some rest ↔ text = start ++ rest := by
  constructor
  · intro found
    unfold cutPrefix at found
    split at found
    · next isPrefix =>
        obtain ⟨tail, rfl⟩ := isPrefixOf_iff_prefix.mp isPrefix
        simpa using found
    · cases found
  · rintro rfl
    exact cutPrefix_append start rest

def cutSuffix [DecidableEq α] (stop text : List α) : Option (List α) :=
  if stop.isSuffixOf text then some (text.take (text.length - stop.length)) else none

theorem cutSuffix_eq_some [DecidableEq α] {stop : List α} :
    cutSuffix stop text = some rest ↔ text = rest ++ stop := by
  constructor
  · intro found
    unfold cutSuffix at found
    split at found
    · next isSuffix =>
        obtain ⟨start, rfl⟩ := isSuffixOf_iff_suffix.mp isSuffix
        simpa using found
    · cases found
  · rintro rfl
    simp [cutSuffix]

theorem notMem_intercalate (absent : element ∉ separator)
    (absentWords : ∀ word ∈ words, element ∉ word) : element ∉ separator.intercalate words := by
  induction words with
  | nil => simp [List.intercalate]
  | cons word rest ih =>
    obtain ⟨absentWord, absentRest⟩ := forall_mem_cons.mp absentWords
    cases rest with
    | nil => simpa [List.intercalate] using absentWord
    | cons next rest =>
      rw [intercalate_cons_cons]
      simp [absent, absentWord, ih absentRest]

theorem intercalate_concat (some' : words ≠ []) :
    separator.intercalate (words ++ [word]) = separator.intercalate words ++ separator ++ word := by
  induction words with
  | nil => exact absurd rfl some'
  | cons first rest ih =>
    cases rest with
    | nil => simp [intercalate_cons_cons]
    | cons next rest =>
      rw [cons_append, cons_append, intercalate_cons_cons, ← cons_append, ih (cons_ne_nil _ _),
        intercalate_cons_cons]
      simp

/-- A word after the first one stands between two separators, or after the last one. -/
theorem mem_intercalate {separator : α} {rest : List (List α)} (member : word ∈ rest) :
    separator :: (word ++ [separator]) <:+: [separator].intercalate (first :: rest) ∨
      separator :: word <:+ [separator].intercalate (first :: rest) := by
  induction rest generalizing first with
  | nil => cases member
  | cons second others ih =>
    rw [intercalate_cons_cons]
    rcases mem_cons.mp member with rfl | later
    · cases others with
      | nil => exact Or.inr ⟨first, by simp⟩
      | cons third others =>
        refine Or.inl ⟨first, [separator].intercalate (third :: others), ?_⟩
        simp [intercalate_cons_cons]
    · rcases @ih second later with inside | ending
      · exact Or.inl (inside.trans (suffix_append _ _).isInfix)
      · exact Or.inr (ending.trans (suffix_append _ _))

/-- A word is one of the parts if it stands between two separators, or after the last one. -/
theorem mem_splitOn_cons [BEq α] [LawfulBEq α] {separator : α} (absent : separator ∉ word)
    (some' : word ≠ []) : word ∈ (separator :: text).splitOn separator ↔
      separator :: (word ++ [separator]) <:+: separator :: text ∨ separator :: word <:+ separator :: text := by
  constructor
  · intro member
    have shape : (separator :: text).splitOn separator = [] :: text.splitOn separator := by
      rw [splitOn_cons_eq_if_modifyHead, if_pos (beq_self_eq_true separator)]
    have whole := @List.intercalate_splitOn _ (separator :: text) _ _ separator
    rw [shape] at member whole
    rw [← whole]
    exact mem_intercalate ((mem_cons.mp member).resolve_left some')
  · rintro (⟨before, after, whole⟩ | ⟨before, whole⟩)
    · have parts : separator :: text = before ++ separator :: (word ++ separator :: after) := by
        simpa using whole.symm
      rw [parts, splitOn_append_cons_self, splitOn_append_cons_self_of_not_mem absent]
      exact mem_append_right _ mem_cons_self
    · rw [← whole, splitOn_append_cons_self, splitOn_eq_singleton absent]
      exact mem_append_right _ mem_cons_self

theorem filter_intercalate {keep : α → Bool} (kept : ∀ word ∈ words, word.filter keep = word) :
    (separator.intercalate words).filter keep = (separator.filter keep).intercalate words := by
  induction words with
  | nil => simp [List.intercalate]
  | cons word rest ih =>
    obtain ⟨keptWord, keptRest⟩ := forall_mem_cons.mp kept
    cases rest with
    | nil => simpa [List.intercalate] using keptWord
    | cons next rest =>
      rw [intercalate_cons_cons, intercalate_cons_cons, filter_append, filter_append, keptWord,
        ih keptRest]

/-- The text after the last of the given elements. -/
def afterLast [DecidableEq α] (stop : α) : List α → Option (List α)
  | [] => none
  | first :: rest => (afterLast stop rest).or (if first = stop then some rest else none)

theorem afterLast_eq_none [DecidableEq α] (absent : stop ∉ text) : afterLast stop text = none := by
  induction text with
  | nil => rfl
  | cons first rest ih =>
    obtain ⟨different, absentRest⟩ := not_or.mp (mem_cons.not.mp absent)
    rw [afterLast, ih absentRest, if_neg (Ne.symm different)]
    rfl

theorem afterLast_append [DecidableEq α] {after : List α} (absent : stop ∉ after) (before : List α) :
    afterLast stop (before ++ stop :: after) = some after := by
  induction before with
  | nil =>
    rw [nil_append, afterLast, afterLast_eq_none absent, if_pos rfl]
    rfl
  | cons first before ih =>
    rw [cons_append, afterLast, ih]
    rfl

/-- The words between white space. -/
def fields (text : List Char) : List (List Char) := (text.splitOnP isSpace).filter (· ≠ [])

/-- A text without white space that is not empty. -/
def IsWord (word : List Char) : Prop := word ≠ [] ∧ ∀ char ∈ word, isSpace char = false

theorem fields_word {word : List Char} (isWord : IsWord word) (space : Char) (isSpace' : isSpace space = true)
    (rest : List Char) : fields (word ++ space :: rest) = word :: fields rest := by
  rw [fields, splitOnP_append_cons_of_forall_mem isWord.2 space isSpace' rest,
    filter_cons_of_pos (by simp [isWord.1])]
  rfl

theorem fields_lines {words : List (List Char)} (areWords : ∀ word ∈ words, IsWord word) :
    fields ([' '].intercalate words ++ ['\n']) = words := by
  induction words with
  | nil => decide
  | cons word rest ih =>
    obtain ⟨isWord, restWords⟩ := forall_mem_cons.mp areWords
    cases rest with
    | nil =>
      have last : fields (word ++ ['\n']) = word :: fields [] := fields_word isWord '\n' (by decide) []
      rw [intercalate_singleton, last]
      rfl
    | cons next rest =>
      have parts : [' '].intercalate (word :: next :: rest) ++ ['\n'] =
          word ++ ' ' :: ([' '].intercalate (next :: rest) ++ ['\n']) := by
        rw [intercalate_cons_cons]
        simp
      rw [parts, fields_word isWord ' ' (by decide), ih restWords]

/-- A number in decimal digits. -/
def itoa (number : Nat) : List Char := Nat.toDigits 10 number

theorem isDigit_of_mem_itoa (member : char ∈ itoa number) : char.isDigit = true :=
  Nat.isDigit_of_mem_toDigits (by decide) (by decide) member

theorem itoa_isWord (number : Nat) : IsWord (itoa number) := by
  refine ⟨Nat.toDigits_ne_nil, fun char member => ?_⟩
  have isDigit := isDigit_of_mem_itoa member
  simp only [Char.isDigit, Bool.and_eq_true, decide_eq_true_eq, UInt32.le_iff_toNat_le] at isDigit
  have low : 48 ≤ char.toNat := isDigit.1
  have high : char.toNat ≤ 57 := isDigit.2
  exact isSpace_eq_false (by omega) (by omega)

theorem itoa_injective {first second : Nat} (same : itoa first = itoa second) : first = second := by
  have value : ∀ number, Nat.ofDigitChars 10 (itoa number) 0 = number := fun number =>
    Nat.ofDigitChars_toDigits (by decide) (by decide)
  rw [← value first, same, value]

/-- The number that decimal digits stand for, if there are any and it is not above the limit. -/
def parseDigits (limit : Nat) (digits : List Char) : Option Nat :=
  if digits ≠ [] ∧ digits.all Char.isDigit ∧ Nat.ofDigitChars 10 digits 0 ≤ limit then some
    (Nat.ofDigitChars 10 digits 0)
  else none

/-- A signed number of 64 bits. -/
def parseInt : List Char → Option Int
  | '-' :: digits => (parseDigits (2 ^ 63) digits).map fun number => -number
  | '+' :: digits => (parseDigits (2 ^ 63 - 1) digits).map fun number => number
  | digits => (parseDigits (2 ^ 63 - 1) digits).map fun number => number

theorem parseInt_itoa {value : Int} (parsed : parseInt (itoa number) = some value) : value = number := by
  have digits : ∀ sign : Char, sign.isDigit = false → ∀ rest, itoa number ≠ sign :: rest := by
    intro sign notDigit rest same
    have isDigit : sign.isDigit = true := isDigit_of_mem_itoa (same ▸ mem_cons_self)
    rw [notDigit] at isDigit
    cases isDigit
  unfold parseInt at parsed
  split at parsed
  next rest same => exact absurd same (digits '-' (by decide) rest)
  next rest same => exact absurd same (digits '+' (by decide) rest)
  next =>
    obtain ⟨read, found, rfl⟩ := Option.map_eq_some_iff.mp parsed
    unfold parseDigits at found
    split at found
    · rw [← Option.some.inj found]
      exact congrArg Int.ofNat (Nat.ofDigitChars_toDigits (by decide) (by decide))
    · cases found

end Text
