import SecurityProfiles.AppArmor.Abstract
import SecurityProfiles.Library.FilePath

namespace SecurityProfiles

open List

def isLabelChar (char : Char) : Bool := char.isLower || char.isDigit || char = '-'

def isLabel (label : Str) : Bool :=
  label ≠ [] && label.all isLabelChar && label.head? ≠ some '-' && label.getLast? ≠ some '-'

/-- The name of an object, as the API server accepts it. -/
structure ObjectName where
  value : Str
  valid : (value.splitOn '.').all isLabel = true
deriving DecidableEq

theorem isLabel_plain {label : Str} (isLabel' : isLabel label = true) :
    label ≠ [] ∧ ∀ char ∈ label, char ≠ '/' ∧ char ≠ ' ' ∧ char ≠ '.' := by
  simp only [isLabel, Bool.and_eq_true, decide_eq_true_eq, all_eq_true] at isLabel'
  obtain ⟨⟨⟨some', each⟩, _⟩, _⟩ := isLabel'
  refine ⟨some', fun char member => ?_⟩
  have isChar := each char member
  refine ⟨?_, ?_, ?_⟩ <;>
    · rintro rfl
      exact absurd isChar (by decide)

variable (name : ObjectName)

theorem ObjectName.labels : ∃ labels : List Str, labels ≠ [] ∧ name.value = ['.'].intercalate labels ∧
    ∀ label ∈ labels, isLabel label = true := by
  refine ⟨name.value.splitOn '.', splitOn_ne_nil _ _, (intercalate_splitOn '.').symm, ?_⟩
  exact all_eq_true.mp name.valid

theorem ObjectName.notMem {char : Char} (isChar : char = '/' ∨ char = ' ') : char ∉ name.value := by
  obtain ⟨labels, _, same, areLabels⟩ := name.labels
  rw [same]
  apply Text.notMem_intercalate
  · rcases isChar with rfl | rfl <;> decide
  · intro label member inLabel
    obtain ⟨_, plain⟩ := isLabel_plain (areLabels label member)
    obtain ⟨notSlash, notSpace, _⟩ := plain char inLabel
    rcases isChar with rfl | rfl
    · exact notSlash rfl
    · exact notSpace rfl

theorem ObjectName.head_ne : name.value.head? ≠ some '.' := by
  obtain ⟨labels, some', same, areLabels⟩ := name.labels
  cases labels with
  | nil => exact absurd rfl some'
  | cons label labels =>
    obtain ⟨named, plain⟩ := isLabel_plain (areLabels label mem_cons_self)
    obtain ⟨first, rest, rfl⟩ := exists_cons_of_ne_nil named
    have notDot := (plain first mem_cons_self).2.2
    rw [same]
    cases labels with
    | nil => simpa [List.intercalate] using notDot
    | cons next labels => simpa [intercalate_cons_cons] using notDot

theorem ObjectName.getLast_ne : name.value.getLast? ≠ some '.' := by
  intro isLast
  obtain ⟨start, same⟩ := getLast?_eq_some_iff.mp isLast
  have joined : name.value = ['.'].intercalate (start.splitOn '.' ++ [[]]) := by
    rw [Text.intercalate_concat (splitOn_ne_nil _ _), intercalate_splitOn, append_nil, same]
  have single : ∀ label ∈ start.splitOn '.' ++ [[]], '.' ∉ label := by
    refine forall_mem_append.mpr ⟨fun label => FilePath.notMem_of_mem_splitOn, ?_⟩
    simp
  have labels : name.value.splitOn '.' = start.splitOn '.' ++ [[]] := by
    rw [joined, splitOn_intercalate '.' single (by simp)]
  have valid := all_eq_true.mp name.valid []
  rw [labels] at valid
  exact absurd (valid (by simp)) (by decide)

theorem ObjectName.ne_nil : name.value ≠ [] := by
  intro empty
  have valid := name.valid
  rw [empty] at valid
  exact absurd valid (by decide)

end SecurityProfiles
