import SecurityProfiles.AppArmor.TextGrants

namespace SecurityProfiles

open List

def dots : Str := "..".toList

def components (path : Str) : List Str := path.splitOn '/'

/-- The last component leads to the parent directory, and no other one does. -/
def Overlooked (path : Str) : Prop := '/' :: dots <:+ path ∧ traverses path = false

/-- The name of the first component starts with two dots, and no component leads to a parent directory. -/
def Mistaken (path : Str) : Prop := '/' :: dots <+: path ∧ dots ∉ components path

theorem traverses_iff {path : Str} :
    traverses path = true ↔ '/' :: (dots ++ ['/']) <:+: path ∨ '/' :: dots <+: path := by
  rw [traverses, Bool.or_eq_true, Text.contains_iff, isPrefixOf_iff_prefix]
  exact Iff.rfl

theorem dots_mem_components {path : Str} (rooted : path.head? = some '/') :
    dots ∈ components path ↔ '/' :: (dots ++ ['/']) <:+: path ∨ '/' :: dots <:+ path := by
  obtain ⟨rest, rfl⟩ := head?_eq_some_iff.mp rooted
  exact Text.mem_splitOn_cons (by decide) (by decide)

theorem validateExecutableOrLibrary_traversal {path : Str} (strict : strictPathRegex path = true) :
    validateExecutableOrLibrary path = .error (.directoryTraversal path) ↔ traverses path = true := by
  cases climbs : traverses path <;>
    simp [validateExecutableOrLibrary, Fallible.require, strict, climbs, bind, Except.bind]

def oneExecutable (path : Str) : AppArmorAbstract := ⟨some ⟨[path], []⟩, none, none, none, none⟩

theorem generateProfile_oneExecutable {path : Str} (strict : strictPathRegex path = true)
    (kept : traverses path = false) :
    ∃ text, generateProfile [] .enforce (some (oneExecutable path)) = .ok text := by
  obtain ⟨rest, rfl⟩ := head?_eq_some_iff.mp (strictPathRegex_iff.mp strict).1
  have isPath : ptraceRule ('/' :: rest) = none := rfl
  refine ⟨_, generateProfile_ok.mpr ⟨⟨Or.inl rfl, ?_, ?_, ?_, ?_⟩, rfl⟩⟩
  · exact fun _ member => nomatch member
  · exact fun _ member => nomatch member
  · intro rule member
    have none : (newApparmorData [] (oneExecutable ('/' :: rest))).ptrace = [] := by
      simp [newApparmorData, newPtraceRules, oneExecutable, splitPtraceRules, AppArmorAbstract.executables,
        AppArmorAbstract.libraries, AppArmorAbstract.readOnly, AppArmorAbstract.writeOnly,
        AppArmorAbstract.readWrite, isPath, Text.sort, Text.compact]
    rw [none] at member
    cases member
  · intro path member
    rw [newApparmorData_executables, newApparmorData_libraries, mem_append] at member
    have isOne : path = '/' :: rest := by
      simpa [pathsOnly, oneExecutable, AppArmorAbstract.executables, AppArmorAbstract.libraries,
        isPath] using member
    rw [isOne]
    exact ⟨strict, kept⟩

/-- In an accepted profile only a last component can lead to a parent directory. -/
theorem dots_mem_of_generated {name : Str} {mode : AppArmorMode} {abstract : AppArmorAbstract} {text path : Str}
    (generated : generateProfile name mode (some abstract) = .ok text)
    (listed : path ∈ abstract.executables ++ abstract.libraries) (isPath : ptraceRule path = none) :
    strictPathRegex path = true ∧ (dots ∈ components path ↔ Overlooked path) := by
  have inData : path ∈ (newApparmorData name abstract).executables ++
      (newApparmorData name abstract).libraries := by
    rw [newApparmorData_executables, newApparmorData_libraries, pathsOnly, pathsOnly, ← filter_append]
    exact mem_filter.mpr ⟨listed, by rw [isPath]; rfl⟩
  obtain ⟨strict, kept⟩ := (generateProfile_ok.mp generated).1.executables path inData
  rw [dots_mem_components (strictPathRegex_iff.mp strict).1]
  refine ⟨strict, fun climbs => ⟨climbs.resolve_left fun inside => ?_, kept⟩, fun overlooked => Or.inr overlooked.1⟩
  rw [traverses_iff.mpr (Or.inl inside)] at kept
  cases kept

/-- The programs and libraries of an accepted profile have no component for the parent directory if and only if none
of their paths ends in the only such component. A path is treated as it should be, in all profiles that list it, if
and only if it has unsafe characters or is neither of the two: accepted with such a component, or rejected without
one. -/
theorem traversals_rejected_iff (abstract : AppArmorAbstract) (path : Str) :
    (∀ name mode text, generateProfile name mode (some abstract) = .ok text →
      ((∀ path ∈ abstract.executables ++ abstract.libraries, ptraceRule path = none → dots ∉ components path) ↔
        ∀ path ∈ abstract.executables ++ abstract.libraries, ptraceRule path = none → ¬ Overlooked path)) ∧
    ((∀ name mode other text, generateProfile name mode (some other) = .ok text →
        path ∈ other.executables ++ other.libraries → ptraceRule path = none → dots ∉ components path) ∧
      (strictPathRegex path = true → dots ∉ components path →
        validateExecutableOrLibrary path ≠ .error (.directoryTraversal path)) ↔
      ¬ (strictPathRegex path = true ∧ (Overlooked path ∨ Mistaken path))) := by
  refine ⟨fun name mode text generated => forall₃_congr fun path listed isPath =>
    not_congr (dots_mem_of_generated generated listed isPath).2, ?_, fun judged => ?_⟩
  · rintro ⟨refused, accepted⟩ ⟨strict, overlooked | mistaken⟩
    · obtain ⟨text, generated⟩ := generateProfile_oneExecutable strict overlooked.2
      have rooted := (strictPathRegex_iff.mp strict).1
      have isPath : ptraceRule path = none := by
        obtain ⟨rest, rfl⟩ := head?_eq_some_iff.mp rooted
        rfl
      refine refused _ _ _ text generated ?_ isPath ((dots_mem_components rooted).mpr (Or.inr overlooked.1))
      exact mem_append_left _ (mem_singleton_self path)
    · have climbs := traverses_iff.mpr (Or.inr mistaken.1)
      exact accepted strict mistaken.2 ((validateExecutableOrLibrary_traversal strict).mpr climbs)
  · refine ⟨fun name mode other text generated listed isPath climbs => ?_, fun strict level rejected => ?_⟩
    · obtain ⟨strict, overlooked⟩ := dots_mem_of_generated generated listed isPath
      exact judged ⟨strict, Or.inl (overlooked.mp climbs)⟩
    · rcases traverses_iff.mp ((validateExecutableOrLibrary_traversal strict).mp rejected) with inside | first
      · exact level ((dots_mem_components (strictPathRegex_iff.mp strict).1).mpr (Or.inl inside))
      · exact judged ⟨strict, Or.inr ⟨first, level⟩⟩

/-- A program is allowed whose path ends in the parent directory, and one is taken for a traversal that is none. -/
theorem usr_parent_allowed :
    (∃ text, generateProfile [] .enforce (some (oneExecutable "/usr/..".toList)) = .ok text) ∧
      dots ∈ components "/usr/..".toList ∧
      validateExecutableOrLibrary "/..app".toList = .error (.directoryTraversal "/..app".toList) ∧
      dots ∉ components "/..app".toList :=
  ⟨generateProfile_oneExecutable (by decide) (by decide), by decide, rfl, by decide⟩

end SecurityProfiles
