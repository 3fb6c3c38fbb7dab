import SecurityProfiles.AppArmor.Abstract
import SecurityProfiles.Library.Glob

namespace SecurityProfiles

open List

/-- A character of a path, or a variable, whose value is not known here. -/
inductive Atom where
  | char (c : Char)
  | var (name : Str)
deriving DecidableEq

namespace Atom

def text : Atom → Str
  | .char c => [c]
  | .var name => '@' :: '\x7b' :: (name ++ ['\x7d'])

end Atom

def writeAtoms (atoms : List Atom) : Str := atoms.flatMap Atom.text

/-- Read a path, where the name of a variable may be half read. -/
def readAtomsFrom : Option Str → Str → Option (List Atom)
  | none, [] => some []
  | none, '@' :: '\x7b' :: rest => readAtomsFrom (some []) rest
  | none, c :: rest => (readAtomsFrom none rest).map (.char c :: ·)
  | some _, [] => none
  | some name, c :: rest =>
    if c = '\x7d' then (readAtomsFrom none rest).map (.var name :: ·) else readAtomsFrom (some (name ++ [c])) rest

def readAtoms (path : Str) : Option (List Atom) := readAtomsFrom none path

def isNameChar (c : Char) : Bool := c.isAlphanum || c = '_'

def isPathChar (c : Char) : Bool := c.isAlphanum || c ∈ ['_', '.', '/', '*', '?', '+', '@', ' ', '-']

/-- A piece of a path that the validation lets through. -/
def Atom.isStrict : Atom → Bool
  | .char c => isPathChar c
  | .var name => name ≠ [] && name.all isNameChar

/-- `strictPathRegex` matches a slash followed by plain characters, wildcards and variables. -/
def strictPathRegex (path : Str) : Bool :=
  path.head? = some '/' && (readAtoms path).any (·.all Atom.isStrict)

theorem writeAtoms_append (left right : List Atom) :
    writeAtoms (left ++ right) = writeAtoms left ++ writeAtoms right := by
  simp [writeAtoms]

@[simp] theorem writeAtoms_cons (atom : Atom) (rest : List Atom) :
    writeAtoms (atom :: rest) = atom.text ++ writeAtoms rest := by
  simp [writeAtoms]

@[simp] theorem writeAtoms_nil : writeAtoms [] = [] := rfl

variable {c : Char} {name rest path chars : Str} {atoms file : List Atom}

theorem isPathChar_ne (isPath : isPathChar c = true) : c ≠ '\x7b' ∧ c ≠ '[' := by
  constructor <;>
    · rintro rfl
      revert isPath
      decide

theorem isNameChar_ne (isName : isNameChar c = true) : c ≠ '\x7d' := by
  rintro rfl
  revert isName
  decide

/-- The name of a variable is read up to the closing brace. -/
theorem readAtomsFrom_name (named : name.all isNameChar = true) (sofar : Str) :
    readAtomsFrom (some sofar) (name ++ '\x7d' :: rest) =
      (readAtomsFrom none rest).map (.var (sofar ++ name) :: ·) := by
  induction name generalizing sofar with
  | nil => simp [readAtomsFrom]
  | cons c name ih =>
    obtain ⟨isName, others⟩ := Bool.and_eq_true_iff.mp (all_cons ▸ named)
    have open' : c ≠ '\x7d' := isNameChar_ne isName
    rw [cons_append, readAtomsFrom, if_neg open', ih others]
    simp

/-- A character that starts no variable is read as it is. -/
theorem readAtomsFrom_char (plain : c ≠ '@' ∨ rest.head? ≠ some '\x7b') :
    readAtomsFrom none (c :: rest) = (readAtomsFrom none rest).map (.char c :: ·) := by
  rw [readAtomsFrom]
  rintro rest' rfl rfl
  rcases plain with isAt | isOpen
  · exact isAt rfl
  · exact isOpen rfl

theorem strict_cons {atom : Atom} {rest : List Atom} : (atom :: rest).all Atom.isStrict = true ↔
    atom.isStrict = true ∧ rest.all Atom.isStrict = true := by
  rw [all_cons, Bool.and_eq_true]

theorem head_writeAtoms (strict : atoms.all Atom.isStrict = true) :
    (writeAtoms atoms).head? ≠ some '\x7b' := by
  cases atoms with
  | nil => simp
  | cons atom rest =>
    have strictAtom : atom.isStrict = true := (strict_cons.mp strict).1
    cases atom with
    | char c => simpa [Atom.text] using (isPathChar_ne strictAtom).1
    | var name => simp [Atom.text]

/-- What was written is read back. -/
theorem readAtoms_writeAtoms (strict : atoms.all Atom.isStrict = true) :
    readAtoms (writeAtoms atoms) = some atoms := by
  unfold readAtoms
  induction atoms with
  | nil => rfl
  | cons atom rest ih =>
    obtain ⟨strictAtom, strictRest⟩ := strict_cons.mp strict
    have others := ih strictRest
    cases atom with
    | char c =>
      rw [writeAtoms_cons]
      show readAtomsFrom none (c :: writeAtoms rest) = _
      rw [readAtomsFrom_char (Or.inr (head_writeAtoms strictRest)), others]
      rfl
    | var name =>
      have named : name.all isNameChar = true := (Bool.and_eq_true_iff.mp strictAtom).2
      rw [writeAtoms_cons]
      have shape : (Atom.var name).text ++ writeAtoms rest =
          '@' :: '\x7b' :: (name ++ '\x7d' :: writeAtoms rest) := by
        simp [Atom.text]
      rw [shape, readAtomsFrom, readAtomsFrom_name named, others]
      rfl

theorem writeAtoms_of_readAtomsFrom {state : Option Str} (read : readAtomsFrom state path = some atoms) :
    writeAtoms atoms = (state.map fun name => '@' :: '\x7b' :: name).getD [] ++ path := by
  fun_induction readAtomsFrom state path generalizing atoms with
  | case1 =>
    cases read
    rfl
  | case2 rest ih => simpa using ih read
  | case3 c rest _ ih =>
    obtain ⟨others, readRest, rfl⟩ := Option.map_eq_some_iff.mp read
    simpa [Atom.text] using ih readRest
  | case4 => cases read
  | case5 name rest ih =>
    obtain ⟨others, readRest, rfl⟩ := Option.map_eq_some_iff.mp read
    simpa [Atom.text] using ih readRest
  | case6 name c rest _ ih => simpa using ih read

theorem writeAtoms_of_readAtoms (read : readAtoms path = some atoms) :
    writeAtoms atoms = path := by
  simpa using writeAtoms_of_readAtomsFrom read

/-- The paths that the validation lets through. -/
theorem strictPathRegex_iff : strictPathRegex path = true ↔
    path.head? = some '/' ∧ ∃ atoms, atoms.all Atom.isStrict = true ∧ path = writeAtoms atoms := by
  rw [strictPathRegex, Bool.and_eq_true, decide_eq_true_eq]
  refine and_congr_right fun _ => ?_
  constructor
  · intro read
    cases isRead : readAtoms path with
    | none =>
      rw [isRead] at read
      cases read
    | some atoms =>
      rw [isRead, Option.any_some] at read
      exact ⟨atoms, read, (writeAtoms_of_readAtoms isRead).symm⟩
  · rintro ⟨atoms, strict, rfl⟩
    rw [readAtoms_writeAtoms strict, Option.any_some]
    exact strict

/-- The characters that one wildcard may stand for. -/
def Atom.isWild : Atom → Bool
  | .char c => c ≠ '/'
  | .var _ => false

/-- How far a group of alternatives is read: those read already and the current one. -/
abbrev OpenGroup := List (List Atom) × List Atom

/-- The alternatives of a path with groups in braces. -/
def expandFrom : Option OpenGroup → List Atom → List (List Atom)
  | none, [] => [[]]
  | none, .char '\x7b' :: rest => expandFrom (some ([], [])) rest
  | none, atom :: rest => (expandFrom none rest).map (atom :: ·)
  | some _, [] => []
  | some (done, current), .char '\x7d' :: rest =>
    (done ++ [current]).flatMap fun alternative => (expandFrom none rest).map (alternative ++ ·)
  | some (done, current), .char ',' :: rest => expandFrom (some (done ++ [current], [])) rest
  | some (done, current), atom :: rest => expandFrom (some (done, current ++ [atom])) rest

/-- The characters between the brackets of a class, with ranges spelled out. -/
def classChars : Str → List Atom
  | first :: '-' :: last :: rest =>
    (List.range (last.toNat + 1 - first.toNat)).map (fun n => .char (Char.ofNat (first.toNat + n))) ++
      classChars rest
  | c :: rest => .char c :: classChars rest
  | [] => []

/-- The wildcards of a path, where a class of characters may be half read. -/
def tokensFrom : Option Str → List Atom → List (Glob.Token Atom)
  | none, [] => []
  | none, .char '*' :: .char '*' :: rest => .all :: tokensFrom none rest
  | none, .char '*' :: rest => .run :: tokensFrom none rest
  | none, .char '?' :: rest => .one :: tokensFrom none rest
  | none, .char '[' :: .char '^' :: rest => tokensFrom (some []) rest
  | none, atom :: rest => .lit atom :: tokensFrom none rest
  | some _, [] => []
  | some chars, .char ']' :: rest => .noneOf (classChars chars) :: tokensFrom none rest
  | some chars, .char c :: rest => tokensFrom (some (chars ++ [c])) rest
  | some chars, .var _ :: rest => tokensFrom (some chars) rest

def tokens (atoms : List Atom) : List (Glob.Token Atom) := tokensFrom none atoms

/-- The rule with the path is about the file. -/
def pathMatches (path : Str) (file : List Atom) : Bool :=
  ((readAtoms path).map (expandFrom none)).any
    (·.any fun alternative => Glob.accepts Atom.isWild (tokens alternative) file)

section

variable (strict : atoms.all Atom.isStrict = true)
include strict

theorem expandFrom_strict :
    expandFrom none atoms = [atoms] := by
  induction atoms with
  | nil => rfl
  | cons atom rest ih =>
    obtain ⟨strictAtom, strictRest⟩ := strict_cons.mp strict
    rw [expandFrom, ih strictRest]
    · rfl
    · rintro rfl
      exact (isPathChar_ne strictAtom).1 rfl

theorem pathMatches_writeAtoms :
    pathMatches (writeAtoms atoms) file = Glob.accepts Atom.isWild (tokens atoms) file := by
  simp [pathMatches, readAtoms_writeAtoms strict, expandFrom_strict strict]

/-- A path without classes stands for itself, wildcards included. -/
theorem accepts_tokens_self :
    Glob.accepts Atom.isWild (tokens atoms) atoms = true := by
  suffices outside : ∀ state, state = none → Glob.accepts Atom.isWild (tokensFrom state atoms) atoms = true from
    outside none rfl
  intro state none
  fun_induction tokensFrom state atoms with
  | case1 => rfl
  | case2 rest ih =>
    have others := ih (strict_cons.mp (strict_cons.mp strict).2).2 rfl
    exact Glob.accepts_all_append [.char '*', .char '*'] others
  | case3 rest _ ih =>
    have others := ih (strict_cons.mp strict).2 rfl
    exact Glob.accepts_run_append (fun symbol (member : symbol ∈ [Atom.char '*']) => by simp_all [Atom.isWild])
      others
  | case4 rest ih => exact Glob.accepts_one rfl (ih (strict_cons.mp strict).2 rfl)
  | case5 rest => exact absurd rfl (isPathChar_ne (strict_cons.mp strict).1).2
  | case6 atom rest _ _ _ _ ih => exact Glob.accepts_lit_cons.mpr ⟨rfl, ih (strict_cons.mp strict).2 rfl⟩
  | case7 => cases none
  | case8 => cases none
  | case9 => cases none
  | case10 => cases none

/-- Wildcards do not reach across the end of a path that ends without one. -/
theorem tokens_append {rest : List Atom}
    (ended : atoms.getLast? ≠ some (.char '*')) : tokens (atoms ++ rest) = tokens atoms ++ tokens rest := by
  have later : ∀ {atom : Atom} {others : List Atom}, (atom :: others).getLast? ≠ some (.char '*') →
      others.getLast? ≠ some (.char '*') := by
    intro atom others ended
    cases others with
    | nil => simp
    | cons head tail => simpa [getLast?_cons_cons] using ended
  suffices outside : ∀ state, state = none →
      tokensFrom state (atoms ++ rest) = tokensFrom state atoms ++ tokensFrom none rest from outside none rfl
  intro state none
  fun_induction tokensFrom state atoms with
  | case1 => rw [nil_append, nil_append, none]
  | case2 others ih =>
    rw [cons_append, cons_append, tokensFrom,
      ih (strict_cons.mp (strict_cons.mp strict).2).2 (later (later ended)) rfl, cons_append]
  | case3 others single ih =>
    cases others with
    | nil => exact absurd rfl ended
    | cons head tail =>
      have different : head ≠ .char '*' := by
        rintro rfl
        exact single tail rfl
      rw [cons_append, cons_append, tokensFrom, ← cons_append,
        ih (strict_cons.mp strict).2 (later ended) rfl, cons_append]
      simpa using different
  | case4 others ih =>
    rw [cons_append, tokensFrom, ih (strict_cons.mp strict).2 (later ended) rfl, cons_append]
  | case5 others => exact absurd rfl (isPathChar_ne (strict_cons.mp strict).1).2
  | case6 atom others notAll notRun notOne _ ih =>
    have notClass : atom ≠ .char '[' := by
      rintro rfl
      exact absurd rfl (isPathChar_ne (strict_cons.mp strict).1).2
    rw [cons_append, tokensFrom, ih (strict_cons.mp strict).2 (later ended) rfl, cons_append]
    · exact fun others isRun _ => notRun isRun
    · exact notRun
    · exact notOne
    · exact fun _ isClass _ => notClass isClass
  | case7 => cases none
  | case8 => cases none
  | case9 => cases none
  | case10 => cases none

theorem pathMatches_self :
    pathMatches (writeAtoms atoms) atoms = true := by
  rw [pathMatches_writeAtoms strict]
  exact accepts_tokens_self strict

end

/-- A path that starts with a variable is about files that do so. -/
theorem pathMatches_var (named : name.all isNameChar = true)
    (matched : pathMatches ('@' :: '\x7b' :: (name ++ '\x7d' :: rest)) file = true) :
    file.head? = some (.var name) := by
  unfold pathMatches readAtoms at matched
  rw [readAtomsFrom, readAtomsFrom_name named, Option.map_map] at matched
  cases others : readAtomsFrom none rest with
  | none =>
    rw [others] at matched
    cases matched
  | some atoms =>
    rw [others, Option.map_some, Option.any_some, Function.comp_apply] at matched
    obtain ⟨alternative, member, accepted⟩ := any_eq_true.mp matched
    have expanded : expandFrom none (.var ([] ++ name) :: atoms) =
        (expandFrom none atoms).map (.var ([] ++ name) :: ·) := by
      rw [expandFrom]
      simp
    rw [expanded] at member
    obtain ⟨alternative, _, rfl⟩ := mem_map.mp member
    have shape : tokens (.var ([] ++ name) :: alternative) = .lit (.var ([] ++ name)) :: tokens alternative := by
      unfold tokens
      rw [tokensFrom] <;> simp
    rw [shape, Glob.accepts, Bool.and_eq_true, decide_eq_true_eq] at accepted
    exact accepted.1

/-- Plain characters at the start of a path stand for themselves. -/
theorem accepts_chars {rest : List (Glob.Token Atom)}
    (accepted : Glob.accepts Atom.isWild (chars.map (fun c => .lit (.char c)) ++ rest) file = true) :
    ∃ tail, file = chars.map .char ++ tail ∧ Glob.accepts Atom.isWild rest tail = true := by
  induction chars generalizing file with
  | nil => exact ⟨file, rfl, accepted⟩
  | cons c chars ih =>
    cases file with
    | nil => simp [Glob.accepts] at accepted
    | cons atom file =>
      obtain ⟨rfl, acceptedRest⟩ := Glob.accepts_lit_cons.mp accepted
      obtain ⟨tail, rfl, acceptedTail⟩ := ih acceptedRest
      exact ⟨tail, rfl, acceptedTail⟩

/-- Characters of paths other than wildcards and the start of a variable. -/
def isPlainChar (c : Char) : Bool := isPathChar c && c ∉ ['*', '?', '@']

theorem tokens_plain (plain : chars.all isPlainChar = true) :
    tokens (chars.map .char) = chars.map fun c => .lit (.char c) := by
  unfold tokens
  induction chars with
  | nil => rfl
  | cons c chars ih =>
    obtain ⟨plainChar, plainRest⟩ := Bool.and_eq_true_iff.mp (all_cons ▸ plain)
    have different : c ≠ '*' ∧ c ≠ '?' ∧ c ≠ '[' := by
      refine ⟨?_, ?_, ?_⟩ <;>
        · rintro rfl
          revert plainChar
          decide
    rw [map_cons, tokensFrom, ih plainRest, map_cons] <;> simp [different]

/-- A path without wildcards is about one file. -/
theorem pathMatches_plain (plain : chars.all isPlainChar = true)
    (matched : pathMatches chars file = true) : file = chars.map .char := by
  have strict : (chars.map Atom.char).all Atom.isStrict = true := by
    rw [all_map]
    exact all_eq_true.mpr fun c member => (Bool.and_eq_true_iff.mp (all_eq_true.mp plain c member)).1
  have written : writeAtoms (chars.map .char) = chars := by
    simp [writeAtoms, flatMap_map, Atom.text]
  rw [← written, pathMatches_writeAtoms strict, tokens_plain plain, ← append_nil (chars.map _)] at matched
  obtain ⟨tail, rfl, ended⟩ := accepts_chars matched
  rw [Glob.accepts_nil.mp ended, append_nil]

end SecurityProfiles
