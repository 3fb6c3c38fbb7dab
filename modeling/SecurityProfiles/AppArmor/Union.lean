import SecurityProfiles.AppArmor.Abstract
import SecurityProfiles.Library.SortedMap
import SecurityProfiles.Library.Fallible

namespace SecurityProfiles

open List

structure FileAccess where
  read : Bool
  write : Bool
deriving DecidableEq

namespace FileAccess

def none : FileAccess := ⟨false, false⟩
def fileRead : FileAccess := ⟨true, false⟩
def fileWrite : FileAccess := ⟨false, true⟩
def or (left right : FileAccess) : FileAccess := ⟨left.read || right.read, left.write || right.write⟩

end FileAccess

/-- The paths of a profile that reference a variable. -/
structure VariablePaths where
  executables : List Str
  libraries : List Str
  files : SortedMap Str FileAccess

/-- Whether an AppArmor path references a variable. -/
def hasVariable (path : Str) : Bool := Text.contains ['@', '\x7b'] path

def dropVariables (paths : List Str) : List Str := paths.filter fun path => !hasVariable path

def keepVariables (paths : List Str) : List Str := paths.filter hasVariable

def accessOf (files : SortedMap Str FileAccess) (path : Str) : FileAccess :=
  (files.lookup path).getD .none

def addAccess (access : FileAccess) (files : SortedMap Str FileAccess) (path : Str) :
    SortedMap Str FileAccess :=
  files.insert path ((accessOf files path).or access)

def addFiles (files : SortedMap Str FileAccess) (access : FileAccess) (paths : List Str) :
    SortedMap Str FileAccess :=
  (keepVariables paths).foldl (addAccess access) files

/-- The profile without the paths that reference a variable, and those paths. -/
def splitVariablePaths (profile : AppArmorAbstract) : AppArmorAbstract × VariablePaths :=
  let rest := { profile with
    executable := profile.executable.map fun rules =>
      { allowedExecutables := dropVariables rules.allowedExecutables
        allowedLibraries := dropVariables rules.allowedLibraries }
    filesystem := profile.filesystem.map fun rules =>
      { readOnlyPaths := dropVariables rules.readOnlyPaths
        writeOnlyPaths := dropVariables rules.writeOnlyPaths
        readWritePaths := dropVariables rules.readWritePaths } }
  let read := addFiles .empty .fileRead profile.readOnly
  let write := addFiles read .fileWrite profile.writeOnly
  (rest,
    { executables := keepVariables profile.executables
      libraries := keepVariables profile.libraries
      files := addFiles write (.or .fileRead .fileWrite) profile.readWrite })

def sortedUnion (paths more : List Str) : List Str :=
  if more = [] then paths else Text.compact (Text.sort (paths ++ more))

def pathsWith (files : SortedMap Str FileAccess) (granted : FileAccess → Bool) : List Str :=
  (files.entries.filter fun entry => granted entry.2).map (·.1)

def readsOnly (access : FileAccess) : Bool := access = .fileRead

def writesOnly (access : FileAccess) : Bool := access = .fileWrite

def unionFiles (left right : SortedMap Str FileAccess) : SortedMap Str FileAccess :=
  right.entries.foldl (fun files entry => addAccess entry.2 files entry.1) left

def addVariableExecutables (merged : Option AppArmorExecutablesRules) (executables libraries : List Str) :
    Option AppArmorExecutablesRules :=
  if executables = [] ∧ libraries = [] then merged
  else
    let rules := merged.getD { allowedExecutables := [], allowedLibraries := [] }
    some { allowedExecutables := sortedUnion rules.allowedExecutables executables
           allowedLibraries := sortedUnion rules.allowedLibraries libraries }

def addVariableFiles (merged : Option AppArmorFsRules) (files : SortedMap Str FileAccess) :
    Option AppArmorFsRules :=
  if files.entries = [] then merged
  else
    let rules := merged.getD { readOnlyPaths := [], writeOnlyPaths := [], readWritePaths := [] }
    some { readOnlyPaths := Text.sort (rules.readOnlyPaths ++ pathsWith files readsOnly)
           writeOnlyPaths := Text.sort (rules.writeOnlyPaths ++ pathsWith files writesOnly)
           readWritePaths := Text.sort (rules.readWritePaths ++
             pathsWith files fun access => !readsOnly access && !writesOnly access) }

def addVariablePaths (merged : AppArmorAbstract) (left right : VariablePaths) : AppArmorAbstract :=
  { merged with
    executable := addVariableExecutables merged.executable
      (left.executables ++ right.executables) (left.libraries ++ right.libraries)
    filesystem := addVariableFiles merged.filesystem (unionFiles left.files right.files) }

def lowerCapabilities (capabilities : List Str) : List Str :=
  Text.compact (Text.sort (capabilities.map Text.toLower))

/-- The ptrace rules of two profiles in one rule, for every peer if theirs differ. -/
def unionPtrace (leftRules rightRules : Option AppArmorPtraceRules) : Option AppArmorPtraceRules :=
  let left := leftRules.getD { allowedAccess := [], peer := [] }
  let right := rightRules.getD { allowedAccess := [], peer := [] }
  let access := left.allowedAccess ++ right.allowedAccess
  if access = [] then none
  else
    some { allowedAccess := Text.compact (Text.sort access)
           peer :=
             if left.allowedAccess = [] then right.peer
             else if right.allowedAccess = [] then left.peer
             else if left.peer ≠ right.peer then []
             else left.peer }

abbrev MergerUnion := MergerProfile → MergerProfile → Except String MergerProfile

/-- The profile of the merger library with what it did not get to see. -/
def completeUnion (base additions : AppArmorAbstract) (merged : MergerProfile) : AppArmorAbstract :=
  let result := mergerProfileToAbstract merged
  let lowered := { result with
    capability := result.capability.map fun rules =>
      { allowedCapabilities := lowerCapabilities rules.allowedCapabilities } }
  { addVariablePaths lowered (splitVariablePaths base).2 (splitVariablePaths additions).2 with
    ptrace := unionPtrace base.ptrace additions.ptrace }

/-- `unionAppArmor` merges two profiles, so that the result allows what either of them allows. -/
def unionAppArmor (union : MergerUnion) (base additions : AppArmorAbstract) : Except String AppArmorAbstract := do
  let merged ← union (abstractToMergerProfile (splitVariablePaths base).1)
    (abstractToMergerProfile (splitVariablePaths additions).1)
  return completeUnion base additions merged

theorem accessOf_addAccess (access : FileAccess) (files : SortedMap Str FileAccess) (path path' : Str) :
    accessOf (addAccess access files path) path' =
      if path' = path then (accessOf files path).or access else accessOf files path' := by
  unfold accessOf addAccess
  rw [SortedMap.lookup_insert]
  split <;> rfl

theorem FileAccess.or_or_self (first second : FileAccess) : (first.or second).or second = first.or second := by
  simp [FileAccess.or]

theorem accessOf_foldl_addAccess (access : FileAccess) (paths : List Str) (path : Str)
    (files : SortedMap Str FileAccess) :
    accessOf (paths.foldl (addAccess access) files) path =
      if path ∈ paths then (accessOf files path).or access else accessOf files path := by
  induction paths generalizing files with
  | nil => rfl
  | cons head rest ih =>
    rw [foldl_cons, ih, accessOf_addAccess]
    by_cases here : path = head
    · subst here
      by_cases later : path ∈ rest
      · simp [later, FileAccess.or_or_self]
      · simp [later]
    · simp [here]

/-- What the lists of a profile say about a path. -/
def AppArmorAbstract.fileAccess (abstract : AppArmorAbstract) (path : Str) : FileAccess :=
  ⟨decide (path ∈ abstract.readOnly ∨ path ∈ abstract.readWrite),
    decide (path ∈ abstract.writeOnly ∨ path ∈ abstract.readWrite)⟩

/-- What is split off are the paths with a variable, with all the access that the profile gives them. -/
theorem accessOf_splitVariablePaths (profile : AppArmorAbstract) (path : Str) :
    accessOf (splitVariablePaths profile).2.files path =
      if hasVariable path then profile.fileAccess path else .none := by
  simp only [splitVariablePaths, addFiles, accessOf_foldl_addAccess, keepVariables, mem_filter]
  by_cases variable' : hasVariable path
  · by_cases inReadOnly : path ∈ profile.readOnly <;> by_cases inWriteOnly : path ∈ profile.writeOnly <;>
      by_cases inReadWrite : path ∈ profile.readWrite <;>
      simp [variable', inReadOnly, inWriteOnly, inReadWrite, AppArmorAbstract.fileAccess, FileAccess.or,
        FileAccess.fileRead, FileAccess.fileWrite, FileAccess.none, accessOf]
  · simp [variable', accessOf]

theorem FileAccess.or_none (access : FileAccess) : access.or .none = access := by
  simp [FileAccess.or, FileAccess.none]

theorem FileAccess.or_comm (first second : FileAccess) : first.or second = second.or first := by
  simp [FileAccess.or, Bool.or_comm]

theorem accessOf_foldl_entries {entries : List (Sigma fun _ : Str => FileAccess)}
    (sorted : entries.Pairwise fun first second => first.1 < second.1) (path : Str)
    (files : SortedMap Str FileAccess) :
    accessOf (entries.foldl (fun files entry => addAccess entry.2 files entry.1) files) path =
      (accessOf files path).or (accessOf ⟨entries, sorted⟩ path) := by
  induction entries generalizing files with
  | nil => exact (FileAccess.or_none _).symm
  | cons entry entries ih =>
    have access : accessOf ⟨entry :: entries, sorted⟩ path =
        if path = entry.1 then entry.2 else accessOf (SortedMap.rest sorted) path := by
      rw [accessOf, SortedMap.lookup_cons sorted path]
      split <;> rfl
    rw [foldl_cons, ih sorted.of_cons, accessOf_addAccess, access]
    by_cases here : path = entry.1
    · have gone : accessOf (SortedMap.rest sorted) path = .none := by
        rw [accessOf, here, SortedMap.lookup_rest_first sorted]
        rfl
      rw [if_pos here, if_pos here, here]
      exact (congrArg _ (here ▸ gone)).trans (FileAccess.or_none _)
    · rw [if_neg here, if_neg here]
      rfl

theorem accessOf_unionFiles (left right : SortedMap Str FileAccess) (path : Str) :
    accessOf (unionFiles left right) path = (accessOf left path).or (accessOf right path) :=
  accessOf_foldl_entries right.sorted path left

/-- The union of the tables of two profiles, by what their lists say. -/
theorem accessOf_variables (base additions : AppArmorAbstract) (path : Str) :
    accessOf (unionFiles (splitVariablePaths base).2.files (splitVariablePaths additions).2.files) path =
      if hasVariable path then (base.fileAccess path).or (additions.fileAccess path) else .none := by
  rw [accessOf_unionFiles, accessOf_splitVariablePaths, accessOf_splitVariablePaths]
  split <;> rfl

/-- No path stands in the table without an access. -/
def NonEmpty (files : SortedMap Str FileAccess) : Prop :=
  ∀ path access, files.lookup path = some access → access ≠ .none

theorem FileAccess.or_ne_none {first second : FileAccess} (some' : second ≠ .none) : first.or second ≠ .none := by
  obtain ⟨read, write⟩ := second
  cases read <;> cases write <;> simp_all [FileAccess.or, FileAccess.none]

theorem NonEmpty.addAccess {files : SortedMap Str FileAccess} (nonEmpty : NonEmpty files) {access : FileAccess}
    (some' : access ≠ .none) (path : Str) : NonEmpty (addAccess access files path) := by
  intro path' access' found
  rw [SecurityProfiles.addAccess, SortedMap.lookup_insert] at found
  split at found
  · cases found
    exact FileAccess.or_ne_none some'
  · exact nonEmpty path' access' found

theorem NonEmpty.addFiles {files : SortedMap Str FileAccess} (nonEmpty : NonEmpty files) {access : FileAccess}
    (some' : access ≠ .none) (paths : List Str) : NonEmpty (addFiles files access paths) := by
  unfold SecurityProfiles.addFiles
  induction keepVariables paths generalizing files with
  | nil => exact nonEmpty
  | cons path rest ih => exact ih (nonEmpty.addAccess some' path)

theorem nonEmpty_splitVariablePaths (profile : AppArmorAbstract) :
    NonEmpty (splitVariablePaths profile).2.files := by
  have start : NonEmpty (.empty : SortedMap Str FileAccess) := by
    intro path access found
    cases found
  exact ((start.addFiles (by decide) _).addFiles (by decide) _).addFiles (by decide) _

theorem NonEmpty.unionFiles {left right : SortedMap Str FileAccess} (nonEmptyLeft : NonEmpty left)
    (nonEmptyRight : NonEmpty right) : NonEmpty (unionFiles left right) := by
  have accesses : ∀ entry ∈ right.entries, entry.2 ≠ .none := fun entry member =>
    nonEmptyRight entry.1 entry.2 (SortedMap.mem_entries.mp member)
  unfold SecurityProfiles.unionFiles
  revert accesses
  induction right.entries generalizing left with
  | nil => exact fun _ => nonEmptyLeft
  | cons entry rest ih =>
    intro accesses
    exact ih (nonEmptyLeft.addAccess (accesses entry mem_cons_self) entry.1)
      fun later member => accesses later (mem_cons_of_mem _ member)

theorem NonEmpty.mem_pathsWith {files : SortedMap Str FileAccess} (nonEmpty : NonEmpty files)
    {granted : FileAccess → Bool} {path : Str} : path ∈ pathsWith files granted ↔
      accessOf files path ≠ .none ∧ granted (accessOf files path) = true := by
  simp only [pathsWith, mem_map, mem_filter]
  constructor
  · rintro ⟨⟨key, access⟩, ⟨member, holds⟩, rfl⟩
    have found := SortedMap.mem_entries.mp member
    simpa [accessOf, found] using ⟨nonEmpty _ _ found, holds⟩
  · rintro ⟨listed, holds⟩
    cases found : files.lookup path with
    | none => simp [accessOf, found] at listed
    | some access =>
      have same : accessOf files path = access := by simp [accessOf, found]
      exact ⟨⟨path, access⟩, ⟨SortedMap.mem_entries.mpr found, same ▸ holds⟩, rfl⟩

/-- Each path that was split off is added to the list of its access. -/
theorem mem_addVariableFiles (merged : Option AppArmorFsRules) (files : SortedMap Str FileAccess) (path : Str) :
    (path ∈ ((addVariableFiles merged files).map (·.readOnlyPaths)).getD [] ↔
      path ∈ (merged.map (·.readOnlyPaths)).getD [] ∨ path ∈ pathsWith files readsOnly) ∧
    (path ∈ ((addVariableFiles merged files).map (·.writeOnlyPaths)).getD [] ↔
      path ∈ (merged.map (·.writeOnlyPaths)).getD [] ∨ path ∈ pathsWith files writesOnly) ∧
    (path ∈ ((addVariableFiles merged files).map (·.readWritePaths)).getD [] ↔
      path ∈ (merged.map (·.readWritePaths)).getD [] ∨
        path ∈ pathsWith files fun access => !readsOnly access && !writesOnly access) := by
  by_cases none : files.entries = []
  · simp [addVariableFiles, pathsWith, none]
  · unfold addVariableFiles
    rw [if_neg none]
    cases merged <;> simp [Text.mem_sort]

theorem mem_sortedUnion {paths more : List Str} {path : Str} :
    path ∈ sortedUnion paths more ↔ path ∈ paths ∨ path ∈ more := by
  unfold sortedUnion
  split
  · next none => simp [none]
  · rw [Text.mem_compact_sort, mem_append]

theorem mem_addVariableExecutables (merged : Option AppArmorExecutablesRules) (executables libraries : List Str)
    (path : Str) :
    (path ∈ ((addVariableExecutables merged executables libraries).map (·.allowedExecutables)).getD [] ↔
      path ∈ (merged.map (·.allowedExecutables)).getD [] ∨ path ∈ executables) ∧
    (path ∈ ((addVariableExecutables merged executables libraries).map (·.allowedLibraries)).getD [] ↔
      path ∈ (merged.map (·.allowedLibraries)).getD [] ∨ path ∈ libraries) := by
  by_cases none : executables = [] ∧ libraries = []
  · obtain ⟨rfl, rfl⟩ := none
    simp [addVariableExecutables]
  · unfold addVariableExecutables
    rw [if_neg none]
    cases merged <;> simp [mem_sortedUnion]

section complete

variable (base additions : AppArmorAbstract) (merged : MergerProfile) (path : Str)

/-- What both profiles say about a path with a variable. -/
def variableAccess : FileAccess :=
  if hasVariable path then (base.fileAccess path).or (additions.fileAccess path) else .none

theorem mem_variableFiles {granted : FileAccess → Bool} {access : FileAccess}
    (only : ∀ read write, FileAccess.mk read write ≠ .none ∧ granted ⟨read, write⟩ = true ↔
      ⟨read, write⟩ = access) :
    path ∈ pathsWith (unionFiles (splitVariablePaths base).2.files (splitVariablePaths additions).2.files) granted ↔
      variableAccess base additions path = access := by
  rw [((nonEmpty_splitVariablePaths base).unionFiles (nonEmpty_splitVariablePaths additions)).mem_pathsWith,
    accessOf_variables]
  exact only _ _

theorem mem_readOnly_completeUnion : path ∈ (completeUnion base additions merged).readOnly ↔
    path ∈ (mergerProfileToAbstract merged).readOnly ∨ variableAccess base additions path = .fileRead :=
  (mem_addVariableFiles _ _ path).1.trans (or_congr Iff.rfl (mem_variableFiles base additions path (by decide)))

theorem mem_writeOnly_completeUnion : path ∈ (completeUnion base additions merged).writeOnly ↔
    path ∈ (mergerProfileToAbstract merged).writeOnly ∨ variableAccess base additions path = .fileWrite :=
  (mem_addVariableFiles _ _ path).2.1.trans (or_congr Iff.rfl (mem_variableFiles base additions path (by decide)))

theorem mem_readWrite_completeUnion : path ∈ (completeUnion base additions merged).readWrite ↔
    path ∈ (mergerProfileToAbstract merged).readWrite ∨
      variableAccess base additions path = .or .fileRead .fileWrite :=
  (mem_addVariableFiles _ _ path).2.2.trans (or_congr Iff.rfl (mem_variableFiles base additions path (by decide)))

theorem mem_executables_completeUnion : path ∈ (completeUnion base additions merged).executables ↔
    path ∈ (mergerProfileToAbstract merged).executables ∨
      (hasVariable path = true ∧ (path ∈ base.executables ∨ path ∈ additions.executables)) := by
  refine (mem_addVariableExecutables _ _ _ path).1.trans (or_congr Iff.rfl ?_)
  simp only [splitVariablePaths, keepVariables, mem_append, mem_filter]
  tauto

theorem mem_libraries_completeUnion : path ∈ (completeUnion base additions merged).libraries ↔
    path ∈ (mergerProfileToAbstract merged).libraries ∨
      (hasVariable path = true ∧ (path ∈ base.libraries ∨ path ∈ additions.libraries)) := by
  refine (mem_addVariableExecutables _ _ _ path).2.trans (or_congr Iff.rfl ?_)
  simp only [splitVariablePaths, keepVariables, mem_append, mem_filter]
  tauto

theorem mem_capabilities_completeUnion : path ∈ (completeUnion base additions merged).capabilities ↔
    path ∈ (mergerProfileToAbstract merged).capabilities.map Text.toLower := by
  simp only [completeUnion, addVariablePaths, AppArmorAbstract.capabilities]
  cases (mergerProfileToAbstract merged).capability with
  | none => simp
  | some rules => simp [lowerCapabilities]

end complete

end SecurityProfiles
