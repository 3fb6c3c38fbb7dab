import Mathlib.Tactic.Common

namespace Glob

open List

variable {α : Type} [DecidableEq α]

/-- A piece of a pattern: a symbol, any one symbol, any one but the given ones, a run of symbols, anything at
all. -/
inductive Token (α : Type) where
  | lit (symbol : α)
  | one
  | noneOf (symbols : List α)
  | run
  | all
deriving DecidableEq

/-- Some tail of the word is accepted, and all symbols before it are allowed. -/
def anyTail (allowed : α → Bool) (accepted : List α → Bool) : List α → Bool
  | [] => accepted []
  | symbol :: tail => accepted (symbol :: tail) || (allowed symbol && anyTail allowed accepted tail)

/-- The word is one that the pattern stands for. Wildcards for one symbol or for a run stand for wild symbols
only. -/
def accepts (wild : α → Bool) : List (Token α) → List α → Bool
  | [], word => word.isEmpty
  | .lit symbol :: rest, word => word.head? = some symbol && accepts wild rest word.tail
  | .one :: rest, word => word.head?.any wild && accepts wild rest word.tail
  | .noneOf symbols :: rest, word =>
    word.head?.any (fun symbol => wild symbol && symbol ∉ symbols) && accepts wild rest word.tail
  | .run :: rest, word => anyTail wild (accepts wild rest) word
  | .all :: rest, word => anyTail (fun _ => true) (accepts wild rest) word

omit [DecidableEq α] in
theorem anyTail_iff {allowed : α → Bool} {accepted : List α → Bool} {word : List α} :
    anyTail allowed accepted word = true ↔
      ∃ part tail, word = part ++ tail ∧ (∀ symbol ∈ part, allowed symbol = true) ∧ accepted tail = true := by
  induction word with
  | nil =>
    constructor
    · intro found
      exact ⟨[], [], rfl, by simp, found⟩
    · rintro ⟨part, tail, same, _, found⟩
      obtain ⟨rfl, rfl⟩ := append_eq_nil_iff.mp same.symm
      exact found
  | cons symbol word ih =>
    simp only [anyTail, Bool.or_eq_true, Bool.and_eq_true, ih]
    constructor
    · rintro (found | ⟨isAllowed, part, tail, rfl, allAllowed, found⟩)
      · exact ⟨[], symbol :: word, rfl, by simp, found⟩
      · refine ⟨symbol :: part, tail, rfl, ?_, found⟩
        exact forall_mem_cons.mpr ⟨isAllowed, allAllowed⟩
    · rintro ⟨part, tail, same, allAllowed, found⟩
      cases part with
      | nil =>
        left
        rw [same]
        exact found
      | cons first part =>
        obtain ⟨rfl, rfl⟩ := List.cons.inj same
        have allowedBoth := forall_mem_cons.mp allAllowed
        exact Or.inr ⟨allowedBoth.1, part, tail, rfl, allowedBoth.2, found⟩

section accepts

variable {wild : α → Bool} {rest pattern : List (Token α)} {symbol : α} {word part tail : List α}

@[simp] theorem accepts_nil : accepts wild [] word = true ↔ word = [] := by
  simp [accepts]

@[simp] theorem accepts_lit_cons {first : α} :
    accepts wild (.lit symbol :: rest) (first :: word) = true ↔ first = symbol ∧ accepts wild rest word = true := by
  simp [accepts]

theorem accepts_run : accepts wild (.run :: rest) word = true ↔
    ∃ part tail, word = part ++ tail ∧ (∀ symbol ∈ part, wild symbol = true) ∧ accepts wild rest tail = true :=
  anyTail_iff

theorem accepts_all : accepts wild (.all :: rest) word = true ↔
    ∃ part tail, word = part ++ tail ∧ accepts wild rest tail = true := by
  simp [accepts, anyTail_iff]

/-- A wildcard for one symbol takes the first of the word. -/
theorem accepts_one (isWild : wild symbol = true) (accepted : accepts wild rest tail = true) :
    accepts wild (.one :: rest) (symbol :: tail) = true := by
  simp [accepts, isWild, accepted]

theorem accepts_run_append (allWild : ∀ symbol ∈ part, wild symbol = true)
    (accepted : accepts wild rest tail = true) : accepts wild (.run :: rest) (part ++ tail) = true :=
  accepts_run.mpr ⟨part, tail, rfl, allWild, accepted⟩

theorem accepts_all_append (part : List α) (accepted : accepts wild rest tail = true) :
    accepts wild (.all :: rest) (part ++ tail) = true :=
  accepts_all.mpr ⟨part, tail, rfl, accepted⟩

/-- What two patterns stand for, one after the other. -/
theorem accepts_append (first : accepts wild pattern part = true) (second : accepts wild rest tail = true) :
    accepts wild (pattern ++ rest) (part ++ tail) = true := by
  induction pattern generalizing part with
  | nil =>
    rw [accepts_nil.mp first]
    exact second
  | cons token pattern ih =>
    cases token with
    | run =>
      obtain ⟨head, more, rfl, allWild, accepted⟩ := accepts_run.mp first
      rw [append_assoc]
      exact accepts_run_append allWild (ih accepted)
    | all =>
      obtain ⟨head, more, rfl, accepted⟩ := accepts_all.mp first
      rw [append_assoc]
      exact accepts_all_append head (ih accepted)
    | lit symbol =>
      cases part with
      | nil => simp [accepts] at first
      | cons head part =>
        obtain ⟨rfl, accepted⟩ := accepts_lit_cons.mp first
        exact accepts_lit_cons.mpr ⟨rfl, ih accepted⟩
    | one =>
      cases part with
      | nil => simp [accepts] at first
      | cons head part =>
        simp only [accepts, head?_cons, Option.any_some, tail_cons, Bool.and_eq_true] at first
        exact accepts_one first.1 (ih first.2)
    | noneOf symbols =>
      cases part with
      | nil => simp [accepts] at first
      | cons head part =>
        simp only [accepts, head?_cons, Option.any_some, tail_cons, Bool.and_eq_true,
          cons_append] at first ⊢
        exact ⟨first.1, ih first.2⟩

end accepts

end Glob
