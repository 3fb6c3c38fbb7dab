import SecurityProfiles.AppArmor.UnionGrants

namespace SecurityProfiles

open List

/-- The profile is the union of two others field by field: paths are compared by their text, capabilities
without regard to case, and a path is listed once with all the access it has. -/
structure FieldwiseUnion (left right merged : AppArmorAbstract) : Prop where
  executables : ∀ path, path ∈ merged.executables ↔ path ∈ left.executables ∨ path ∈ right.executables
  libraries : ∀ path, path ∈ merged.libraries ↔ path ∈ left.libraries ∨ path ∈ right.libraries
  readOnly : ∀ path, path ∈ merged.readOnly ↔ (left.fileAccess path).or (right.fileAccess path) = .fileRead
  writeOnly : ∀ path, path ∈ merged.writeOnly ↔ (left.fileAccess path).or (right.fileAccess path) = .fileWrite
  readWrite : ∀ path, path ∈ merged.readWrite ↔
    (left.fileAccess path).or (right.fileAccess path) = .or .fileRead .fileWrite
  capabilities : ∀ name, name ∈ merged.capabilities.map Text.toLower ↔
    name ∈ left.capabilities.map Text.toLower ∨ name ∈ right.capabilities.map Text.toLower
  network : merged.network.isSome = (left.network.isSome || right.network.isSome)
  allowRaw : merged.allowRaw = (left.allowRaw || right.allowRaw)
  allowTCP : merged.allowTCP = (left.allowTCP || right.allowTCP)
  allowUDP : merged.allowUDP = (left.allowUDP || right.allowUDP)

def AppArmorAbstract.VariableFree (abstract : AppArmorAbstract) : Prop :=
  ∀ path ∈ abstract.executables ++ abstract.libraries ++ abstract.readOnly ++ abstract.writeOnly ++
    abstract.readWrite, hasVariable path = false

/-- The union of the merger library is the one field by field on profiles without variables. -/
def UnionFieldwise (union : MergerUnion) : Prop :=
  ∀ left right merged, (mergerProfileToAbstract left).VariableFree → (mergerProfileToAbstract right).VariableFree →
    union left right = .ok merged →
    FieldwiseUnion (mergerProfileToAbstract left) (mergerProfileToAbstract right) (mergerProfileToAbstract merged)

variable {abstract base additions : AppArmorAbstract} {path : Str} {union : MergerUnion} {access : FileAccess}

theorem fileAccess_read :
    (abstract.fileAccess path).read = true ↔ abstract.Grants (.read path) := by
  simp [AppArmorAbstract.fileAccess, AppArmorAbstract.Grants]

theorem fileAccess_write :
    (abstract.fileAccess path).write = true ↔ abstract.Grants (.write path) := by
  simp [AppArmorAbstract.fileAccess, AppArmorAbstract.Grants]

theorem FieldwiseUnion.grants {left right merged : MergerProfile}
    (fields : FieldwiseUnion (mergerProfileToAbstract left) (mergerProfileToAbstract right)
      (mergerProfileToAbstract merged))
    {rule : AppArmorRule}
    (granted : (mergerProfileToAbstract left).Grants rule ∨ (mergerProfileToAbstract right).Grants rule) :
    (mergerProfileToAbstract merged).Grants rule := by
  cases rule with
  | executable path => exact (fields.executables path).mpr granted
  | library path => exact (fields.libraries path).mpr granted
  | read path =>
    rw [← fileAccess_read, ← fileAccess_read, ← Bool.or_eq_true] at granted
    exact (FileAccess.eq_of_read granted).imp (fields.readOnly path).mpr (fields.readWrite path).mpr
  | write path =>
    rw [← fileAccess_write, ← fileAccess_write, ← Bool.or_eq_true] at granted
    exact (FileAccess.eq_of_write granted).imp (fields.writeOnly path).mpr (fields.readWrite path).mpr
  | raw => exact fields.allowRaw.trans (Bool.or_eq_true _ _ ▸ granted)
  | tcp => exact fields.allowTCP.trans (Bool.or_eq_true _ _ ▸ granted)
  | udp => exact fields.allowUDP.trans (Bool.or_eq_true _ _ ▸ granted)
  | capability name => exact (fields.capabilities _).mpr granted
  | ptrace access peer =>
    rcases granted with ⟨_, found, _⟩ | ⟨_, found, _⟩ <;> cases found

theorem mergerView_fileAccess (profile : AppArmorAbstract) (path : Str) :
    (mergerView profile).fileAccess path = if hasVariable path then .none else profile.fileAccess path := by
  obtain ⟨readOnly, writeOnly, readWrite⟩ := mergerView_filesystem profile
  rw [AppArmorAbstract.fileAccess, AppArmorAbstract.fileAccess, readOnly, writeOnly, readWrite]
  by_cases isVariable : hasVariable path <;> simp [mem_dropVariables, isVariable, FileAccess.none]

theorem mergerView_variableFree (profile : AppArmorAbstract) : (mergerView profile).VariableFree := by
  obtain ⟨executables, libraries⟩ := mergerView_executable profile
  obtain ⟨readOnly, writeOnly, readWrite⟩ := mergerView_filesystem profile
  intro path member
  simp only [executables, libraries, readOnly, writeOnly, readWrite, mem_append, mem_dropVariables, ← or_and_right]
    at member
  exact member.2

/-- Paths with a variable and the others are handled apart, with the same outcome. -/
theorem variable_or_plain (some' : access ≠ .none) :
    (((mergerView base).fileAccess path).or ((mergerView additions).fileAccess path) = access ∨
      variableAccess base additions path = access) ↔
      (base.fileAccess path).or (additions.fileAccess path) = access := by
  rw [mergerView_fileAccess, mergerView_fileAccess, variableAccess]
  by_cases isVariable : hasVariable path
  · simp only [isVariable, if_true, or_iff_right_iff_imp]
    exact fun none => absurd none.symm some'
  · simp only [isVariable, Bool.false_eq_true, if_false, or_iff_left_iff_imp]
    exact fun none => absurd none.symm some'

/-- The union of two profiles is the one field by field, whether their paths have variables or not. -/
theorem unionAppArmor_fieldwise (fieldwise : UnionFieldwise union) {merged : AppArmorAbstract}
    (ok : unionAppArmor union base additions = .ok merged) : FieldwiseUnion base additions merged := by
  obtain ⟨seen, united, done⟩ := Fallible.bind_ok.mp ok
  obtain rfl := Fallible.pure_ok.mp done
  have fields : FieldwiseUnion (mergerView base) (mergerView additions) (mergerProfileToAbstract seen) :=
    fieldwise _ _ seen (mergerView_variableFree base) (mergerView_variableFree additions) united
  constructor
  · intro path
    rw [mem_executables_completeUnion, fields.executables, (mergerView_executable base).1,
      (mergerView_executable additions).1, mem_dropVariables, mem_dropVariables]
    by_cases isVariable : hasVariable path <;> simp [isVariable]
  · intro path
    rw [mem_libraries_completeUnion, fields.libraries, (mergerView_executable base).2,
      (mergerView_executable additions).2, mem_dropVariables, mem_dropVariables]
    by_cases isVariable : hasVariable path <;> simp [isVariable]
  · intro path
    rw [mem_readOnly_completeUnion, fields.readOnly, variable_or_plain (by decide)]
  · intro path
    rw [mem_writeOnly_completeUnion, fields.writeOnly, variable_or_plain (by decide)]
  · intro path
    rw [mem_readWrite_completeUnion, fields.readWrite, variable_or_plain (by decide)]
  · intro name
    have lowered : name ∈ (completeUnion base additions seen).capabilities.map Text.toLower ↔
        name ∈ (mergerProfileToAbstract seen).capabilities.map Text.toLower := by
      simp only [mem_map, mem_capabilities_completeUnion]
      constructor
      · rintro ⟨_, ⟨listed, member, rfl⟩, rfl⟩
        exact ⟨listed, member, (Text.toLower_toLower listed).symm⟩
      · rintro ⟨listed, member, rfl⟩
        exact ⟨_, ⟨listed, member, rfl⟩, Text.toLower_toLower listed⟩
    exact lowered.trans (fields.capabilities name)
  · exact fields.network
  · exact fields.allowRaw
  · exact fields.allowTCP
  · exact fields.allowUDP

/-- The paths of both profiles whose access is the given one. -/
def pathsOf (left right : AppArmorAbstract) (access : FileAccess) : List Str :=
  (left.readOnly ++ left.writeOnly ++ left.readWrite ++ right.readOnly ++ right.writeOnly ++ right.readWrite).filter
    fun path => (left.fileAccess path).or (right.fileAccess path) = access

theorem mem_pathsOf {left right : AppArmorAbstract} (some' : access ≠ .none) :
    path ∈ pathsOf left right access ↔ (left.fileAccess path).or (right.fileAccess path) = access := by
  simp only [pathsOf, mem_filter, decide_eq_true_eq, and_iff_right_iff_imp]
  intro same
  by_contra absent
  apply some'
  rw [← same]
  simp only [mem_append, not_or] at absent
  simp [AppArmorAbstract.fileAccess, FileAccess.or, FileAccess.none, absent]

def plainUnion (left right : MergerProfile) : MergerProfile :=
  let l := mergerProfileToAbstract left
  let r := mergerProfileToAbstract right
  { executable := some { allowedExecutables := l.executables ++ r.executables
                         allowedLibraries := l.libraries ++ r.libraries }
    filesystem := some { readOnlyPaths := pathsOf l r .fileRead
                         writeOnlyPaths := pathsOf l r .fileWrite
                         readWritePaths := pathsOf l r (.or .fileRead .fileWrite) }
    network :=
      if l.network.isSome || r.network.isSome then
        some { allowRaw := some (l.allowRaw || r.allowRaw)
               protocols := some { allowTCP := some (l.allowTCP || r.allowTCP)
                                   allowUDP := some (l.allowUDP || r.allowUDP) } }
      else none
    capabilities := some { allowedCapabilities := l.capabilities ++ r.capabilities } }

theorem plainUnion_fields (left right : MergerProfile) : FieldwiseUnion (mergerProfileToAbstract left)
    (mergerProfileToAbstract right) (mergerProfileToAbstract (plainUnion left right)) := by
  constructor
  · intro path
    exact mem_append
  · intro path
    exact mem_append
  · intro path
    exact mem_pathsOf (by decide)
  · intro path
    exact mem_pathsOf (by decide)
  · intro path
    exact mem_pathsOf (by decide)
  · intro name
    rw [← mem_append, ← map_append]
    rfl
  all_goals
    simp only [plainUnion, mergerProfileToAbstract, AppArmorAbstract.allowRaw, AppArmorAbstract.allowTCP,
      AppArmorAbstract.allowUDP]
    obtain ⟨_, _, leftNetwork, _⟩ := left
    obtain ⟨_, _, rightNetwork, _⟩ := right
    cases leftNetwork <;> cases rightNetwork <;> simp

theorem plainUnion_fieldwise : UnionFieldwise fun left right => .ok (plainUnion left right) := by
  rintro left right _ _ _ ⟨⟩
  exact plainUnion_fields left right

theorem plainUnion_above : UnionAppArmorAbove fun left right => .ok (plainUnion left right) := by
  rintro left right _ rule ⟨⟩ granted
  exact (plainUnion_fields left right).grants granted

end SecurityProfiles
