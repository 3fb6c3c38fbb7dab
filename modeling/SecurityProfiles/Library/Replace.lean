import SecurityProfiles.Library.Text

namespace Replace

open List

variable {α : Type}

/-- A pattern by the length of its match at the start of a list, which is not empty. -/
structure Finder (α : Type) where
  find : List α → Option Nat
  positive : ∀ {text length}, find text = some length → 0 < length
  bounded : ∀ {text length}, find text = some length → length ≤ text.length

/-- Replace matches, where some elements of the last match are still to be dropped. -/
def replaceFrom (find : List α → Option Nat) (replacement : List α) : Nat → List α → List α
  | _, [] => []
  | skip + 1, _ :: rest => replaceFrom find replacement skip rest
  | 0, first :: rest =>
    match find (first :: rest) with
    | none => first :: replaceFrom find replacement 0 rest
    | some length => replacement ++ replaceFrom find replacement (length - 1) rest

namespace Finder

variable (finder : Finder α) (replacement : List α)

def replaceAll (text : List α) : List α := replaceFrom finder.find replacement 0 text

theorem replaceFrom_skip (skip : Nat) (text : List α) :
    replaceFrom finder.find replacement skip text = finder.replaceAll replacement (text.drop skip) := by
  induction text generalizing skip with
  | nil => cases skip <;> rfl
  | cons first rest ih =>
    cases skip with
    | zero => rfl
    | succ skip => exact ih skip

variable {finder}

theorem replaceAll_keep {first : α} {rest : List α} (absent : finder.find (first :: rest) = none) :
    finder.replaceAll replacement (first :: rest) = first :: finder.replaceAll replacement rest := by
  rw [replaceAll, replaceFrom, absent]
  rfl

theorem replaceAll_match {text : List α} {length : Nat} (found : finder.find text = some length) :
    finder.replaceAll replacement text = replacement ++ finder.replaceAll replacement (text.drop length) := by
  have positive := finder.positive found
  cases text with
  | nil =>
    have bounded := finder.bounded found
    simp at bounded
    omega
  | cons first rest =>
    obtain ⟨length, rfl⟩ : ∃ rest, length = rest + 1 := ⟨length - 1, by omega⟩
    rw [replaceAll, replaceFrom, found]
    exact congrArg _ (finder.replaceFrom_skip replacement length rest)

/-- Induction along the matches. -/
theorem replaceAll_induction {holds : List α → List α → Prop} (nil : holds [] [])
    (keep : ∀ first rest result, finder.find (first :: rest) = none → holds rest result →
      holds (first :: rest) (first :: result))
    (replace : ∀ text length result, finder.find text = some length → holds (text.drop length) result →
      holds text (replacement ++ result))
    (text : List α) : holds text (finder.replaceAll replacement text) := by
  induction measured : text.length using Nat.strong_induction_on generalizing text with
  | _ size ih =>
    subst measured
    cases found : finder.find text with
    | some length =>
      have positive := finder.positive found
      have bounded := finder.bounded found
      rw [replaceAll_match replacement found]
      exact replace text length _ found (ih _ (by rw [length_drop]; omega) _ rfl)
    | none =>
      cases text with
      | nil => exact nil
      | cons first rest =>
        rw [replaceAll_keep replacement found]
        exact keep first rest _ found (ih _ (by simp) _ rfl)

/-- No match goes beyond the element. -/
def StopsAt (finder : Finder α) (stop : α) : Prop :=
  ∀ text tail, finder.find (text ++ stop :: tail) = finder.find text

/-- No match goes beyond a stop. The text before it and the text from it on are replaced independently. -/
theorem StopsAt.replaceAll_append {stop : α} (stops : finder.StopsAt stop) (text tail : List α) :
    finder.replaceAll replacement (text ++ stop :: tail) =
      finder.replaceAll replacement text ++ finder.replaceAll replacement (stop :: tail) := by
  refine @replaceAll_induction _ finder replacement (fun text result => finder.replaceAll replacement
    (text ++ stop :: tail) = result ++ finder.replaceAll replacement (stop :: tail)) rfl ?_ ?_ text
  · intro first rest result absent same
    have absent' : finder.find (first :: (rest ++ stop :: tail)) = none := (stops (first :: rest) tail).trans absent
    rw [cons_append, replaceAll_keep replacement absent', same]
    rfl
  · intro text length result found same
    have bounded := finder.bounded found
    rw [replaceAll_match replacement ((stops text tail).trans found), drop_append_of_le_length bounded, same,
      append_assoc]

/-- All matches are of elements of the class. -/
def Consists (finder : Finder α) (isIn : α → Bool) : Prop :=
  ∀ {text length}, finder.find text = some length → ∀ element ∈ text.take length, isIn element = true

end Finder

/-- A run of elements of a class that is long enough. -/
def run (isIn : α → Bool) (least : Nat) (positive : 0 < least) : Finder α where
  find text := if least ≤ (text.takeWhile isIn).length then some (text.takeWhile isIn).length else none
  positive := by
    intro text length found
    split at found
    · cases found
      omega
    · cases found
  bounded := by
    intro text length found
    split at found
    · cases found
      exact (takeWhile_sublist _).length_le
    · cases found

/-- The list starts with one element of each class. -/
def startsWith : List (α → Bool) → List α → Bool
  | [], _ => true
  | _ :: _, [] => false
  | isIn :: classes, first :: rest => isIn first && startsWith classes rest

theorem length_le_of_startsWith {classes : List (α → Bool)} {text : List α}
    (starts : startsWith classes text = true) : classes.length ≤ text.length := by
  fun_induction startsWith classes text with
  | case1 => simp
  | case2 => cases starts
  | case3 isIn classes first rest ih =>
    have shorter := ih (Bool.and_eq_true_iff.mp starts).2
    simp only [length_cons]
    omega

def sequence (classes : List (α → Bool)) (nonempty : classes ≠ []) : Finder α where
  find text := if startsWith classes text then some classes.length else none
  positive := by
    intro text length found
    split at found
    · cases found
      exact length_pos_iff.mpr nonempty
    · cases found
  bounded := by
    intro text length found
    split at found
    · next starts =>
        cases found
        exact length_le_of_startsWith starts
    · cases found

/-- A run of elements of a class between a fixed start and a fixed end. -/
def enclosed [DecidableEq α] (start : List α) (isIn : α → Bool) (stop : α) : Finder α where
  find text := (Text.cutPrefix start text).bind fun rest =>
    if rest.takeWhile isIn ≠ [] ∧ (rest.dropWhile isIn).head? = some stop then
      some (start.length + (rest.takeWhile isIn).length + 1)
    else none
  positive := by
    intro text length found
    obtain ⟨rest, _, found⟩ := Option.bind_eq_some_iff.mp found
    split at found
    · cases found
      omega
    · cases found
  bounded := by
    intro text length found
    obtain ⟨rest, started, inRest⟩ := Option.bind_eq_some_iff.mp found
    obtain rfl := Text.cutPrefix_eq_some.mp started
    split at inRest
    · next matched =>
        cases inRest
        obtain ⟨tail, stopped⟩ := head?_eq_some_iff.mp matched.2
        have total := congrArg List.length (takeWhile_append_dropWhile (p := isIn) (l := rest))
        rw [stopped] at total
        simp only [length_append, length_cons] at total ⊢
        omega
    · cases inRest

section stops

variable {isIn : α → Bool} {stop : α}

theorem takeWhile_append_stop (outside : isIn stop = false) (text tail : List α) :
    (text ++ stop :: tail).takeWhile isIn = text.takeWhile isIn := by
  induction text with
  | nil => simp [outside]
  | cons first rest ih => rw [cons_append, takeWhile_cons, takeWhile_cons, ih]

theorem dropWhile_append_stop (outside : isIn stop = false) (text tail : List α) :
    (text ++ stop :: tail).dropWhile isIn = text.dropWhile isIn ++ stop :: tail := by
  induction text with
  | nil => simp [outside]
  | cons first rest ih =>
    rw [cons_append, dropWhile_cons, dropWhile_cons, ih]
    split <;> rfl

/-- A start without the element is found before it or not at all. -/
theorem cutPrefix_append_stop [DecidableEq α] {start : List α} (absent : stop ∉ start) (text tail : List α) :
    Text.cutPrefix start (text ++ stop :: tail) = (Text.cutPrefix start text).map (· ++ stop :: tail) := by
  induction start generalizing text with
  | nil => simp [Text.cutPrefix]
  | cons first start ih =>
    obtain ⟨different, absentRest⟩ := not_or.mp (mem_cons.not.mp absent)
    cases text with
    | nil => simp [Text.cutPrefix, Ne.symm different]
    | cons head text =>
      have rest := ih absentRest text
      unfold Text.cutPrefix at rest ⊢
      by_cases same : first = head
      · simpa [same] using rest
      · simp [same]

theorem run_stopsAt {least : Nat} {positive : 0 < least} (outside : isIn stop = false) :
    (run isIn least positive).StopsAt stop := by
  intro text tail
  simp only [run, takeWhile_append_stop outside]

theorem enclosed_stopsAt [DecidableEq α] {start : List α} {last : α} (absent : stop ∉ start)
    (outside : isIn stop = false) (different : stop ≠ last) : (enclosed start isIn last).StopsAt stop := by
  intro text tail
  simp only [enclosed, cutPrefix_append_stop absent, Option.bind_map]
  congr 1
  funext rest
  simp only [Function.comp_apply, takeWhile_append_stop outside, dropWhile_append_stop outside]
  cases rest.dropWhile isIn with
  | nil => simp [different]
  | cons first others => rfl

section

variable {classes : List (α → Bool)} (outside : ∀ isIn ∈ classes, isIn stop = false)
include outside

theorem startsWith_append_stop
    (text tail : List α) : startsWith classes (text ++ stop :: tail) = startsWith classes text := by
  fun_induction startsWith classes text with
  | case1 text => simp [startsWith]
  | case2 isIn classes => simp [startsWith, outside isIn]
  | case3 isIn classes first rest ih =>
    rw [cons_append, startsWith, ih fun isIn member => outside isIn (mem_cons_of_mem _ member)]

theorem sequence_stopsAt {nonempty : classes ≠ []} : (sequence classes nonempty).StopsAt stop := by
  intro text tail
  simp only [sequence, startsWith_append_stop outside]

end

end stops

theorem run_consists (isIn : α → Bool) (least : Nat) (positive : 0 < least) :
    (run isIn least positive).Consists isIn := by
  intro text length found element member
  simp only [run, Option.ite_none_right_eq_some, Option.some.injEq] at found
  obtain ⟨_, rfl⟩ := found
  rw [← prefix_iff_eq_take.mp (List.takeWhile_prefix isIn)] at member
  exact mem_takeWhile_imp member

section

variable {classes : List (α → Bool)} {isIn : α → Bool}
  (within : ∀ narrow ∈ classes, ∀ element, narrow element = true → isIn element = true)
include within

theorem take_of_startsWith {text : List α}
    (starts : startsWith classes text = true) : ∀ element ∈ text.take classes.length, isIn element = true := by
  fun_induction startsWith classes text with
  | case1 => simp
  | case2 => cases starts
  | case3 narrow classes first rest ih =>
    obtain ⟨isNarrow, startsRest⟩ := Bool.and_eq_true_iff.mp starts
    obtain ⟨withinFirst, withinRest⟩ := forall_mem_cons.mp within
    rw [length_cons, take_succ_cons, forall_mem_cons]
    exact ⟨withinFirst first isNarrow, ih withinRest startsRest⟩

theorem sequence_consists {nonempty : classes ≠ []} :
    (sequence classes nonempty).Consists isIn := by
  intro text length found
  simp only [sequence, Option.ite_none_right_eq_some, Option.some.injEq] at found
  obtain ⟨starts, rfl⟩ := found
  exact take_of_startsWith within starts

end

theorem enclosed_consists [DecidableEq α] {start : List α} {narrow isIn : α → Bool} {stop : α}
    (startIn : ∀ element ∈ start, isIn element = true)
    (within : ∀ element, narrow element = true → isIn element = true) (stopIn : isIn stop = true) :
    (enclosed start narrow stop).Consists isIn := by
  intro text length found element member
  obtain ⟨rest, started, inRest⟩ := Option.bind_eq_some_iff.mp found
  obtain rfl := Text.cutPrefix_eq_some.mp started
  simp only [Option.ite_none_right_eq_some, Option.some.injEq] at inRest
  obtain ⟨⟨_, stopped⟩, rfl⟩ := inRest
  obtain ⟨tail, stopped⟩ := head?_eq_some_iff.mp stopped
  have shape : start ++ rest = (start ++ rest.takeWhile narrow ++ [stop]) ++ tail := by
    have parts := takeWhile_append_dropWhile (p := narrow) (l := rest)
    rw [stopped] at parts
    rw [append_assoc, append_assoc, singleton_append, parts]
  have size : start.length + (rest.takeWhile narrow).length + 1 =
      (start ++ rest.takeWhile narrow ++ [stop]).length := by
    simp
    omega
  rw [shape, size, take_left] at member
  simp only [mem_append, mem_singleton] at member
  rcases member with (inStart | inRun) | rfl
  · exact startIn element inStart
  · exact within element (mem_takeWhile_imp inRun)
  · exact stopIn

end Replace
