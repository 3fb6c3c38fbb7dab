import SecurityProfiles.AppArmor.Rendered

namespace SecurityProfiles

open List

/-- The name of the policy whose definition starts on the line. -/
def policyName (line : Str) : Option Str :=
  (Text.cutPrefix "profile ".toList line).map (·.takeWhile (· ≠ ' '))

/-- The names of the policies that the kernel is given when the text is loaded. -/
def definedPolicies (text : Str) : List Str := (text.splitOn '\n').filterMap policyName

namespace Quiet

theorem policyName_eq_none {line : Str} (start : line.head? ≠ some 'p') : policyName line = none := by
  have stays : Text.cutPrefix "profile ".toList line = none := by
    unfold Text.cutPrefix
    rw [if_neg]
    intro isPrefix
    obtain ⟨rest, rfl⟩ := isPrefixOf_iff_prefix.mp isPrefix
    exact start rfl
  rw [policyName, stays]
  rfl

theorem filterMap (quiet : Quiet lines) : lines.filterMap policyName = [] :=
  filterMap_eq_nil_iff.mpr fun line member => policyName_eq_none (quiet line member).2

end Quiet

/-- The policy starts on one line of the text, and on no other. -/
theorem templateLines_shape (mode : AppArmorMode) {data : ApparmorData} (allowMount : Bool) (valid : data.Valid)
    (capabilities : ∀ name ∈ data.capabilities, name ∈ validCapabilities) :
    ∃ before after, templateLines mode allowMount data = before ++ headerLine mode data.name :: after ∧
      Quiet before ∧
      Quiet after := by
  obtain ⟨body, shape, parses⟩ := templateLines_eq mode allowMount valid capabilities
  have stop : Quiet [[], "\x7d".toList, []] := by decide
  exact ⟨_, _, shape, parses_preamble.quiet, forall_mem_append.mpr ⟨parses.quiet, stop⟩⟩

theorem policyName_headerLine (mode : AppArmorMode) {name : Str} (noSpace : ' ' ∉ name) :
    policyName (headerLine mode name) = some name := by
  have plain : ∀ char ∈ name, decide (char ≠ ' ') = true := by
    intro char member
    exact decide_eq_true fun same => noSpace (same ▸ member)
  rw [headerLine_eq, policyName, Text.cutPrefix_append, Option.map_some, takeWhile_append_of_pos plain,
    takeWhile_cons, if_neg (by decide), append_nil]

theorem definedPolicies_generated {name text line : Str} {mode : AppArmorMode} {abstract : AppArmorAbstract}
    (generated : generateProfile name mode (some abstract) = .ok text) (noSpace : ' ' ∉ name)
    (quiet : Quiet [line]) :
    definedPolicies (line ++ '\n' :: text) = [name] := by
  obtain ⟨valid, same⟩ := generateProfile_ok.mp generated
  subst same
  obtain ⟨before, after, shape, quietBefore, quietAfter⟩ :=
    templateLines_shape mode abstract.allowMount valid fun _ => capability_valid valid
  have whole : ∀ other ∈ line :: templateLines mode abstract.allowMount (newApparmorData name abstract),
      '\n' ∉ other :=
    forall_mem_cons.mpr ⟨(quiet line mem_cons_self).1,
      whole_templateLines mode abstract.allowMount valid fun _ => capability_valid valid⟩
  have joined :
      line ++ '\n' :: ['\n'].intercalate (templateLines mode abstract.allowMount (newApparmorData name abstract)) =
      ['\n'].intercalate (line :: templateLines mode abstract.allowMount (newApparmorData name abstract)) := by
    rw [shape]
    cases before with
    | nil => simp [intercalate_cons_cons]
    | cons first before => simp [intercalate_cons_cons]
  rw [definedPolicies, joined, splitOn_intercalate '\n' whole (cons_ne_nil _ _), ← singleton_append,
    filterMap_append, quiet.filterMap, shape, filterMap_append, quietBefore.filterMap, filterMap_cons]
  have isHeader : policyName (headerLine mode (newApparmorData name abstract).name) = some name :=
    policyName_headerLine mode noSpace
  rw [isHeader, quietAfter.filterMap]
  rfl

end SecurityProfiles
