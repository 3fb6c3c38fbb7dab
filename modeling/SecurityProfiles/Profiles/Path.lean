import SecurityProfiles.AppArmor.Abstract
import SecurityProfiles.Library.FilePath

namespace SecurityProfiles

open List

def operatorRoot : Str := "/var/lib/security-profiles-operator".toList

/-- The kubelet directory of the configuration file, of the environment, or else the default one. -/
def kubeletDir (configured environment : Str) : Str :=
  if configured ≠ [] then configured else if environment ≠ [] then environment else "/var/lib/kubelet".toList

def kubeletSeccompRootPath (kubelet : Str) : Str := FilePath.join [kubelet, "seccomp".toList]

def profilesRootPath (kubelet : Str) : Str :=
  FilePath.join [kubeletSeccompRootPath kubelet, "operator".toList]

def extJSON : Str := ".json".toList

/-- `GetProfileFile` of a profile with the name. -/
def profileFile (name : Str) : Str := if extJSON.isSuffixOf name then name else name ++ extJSON

/-- One element of a path, which does not lead up. -/
def pathSegment (text : Str) : Str :=
  if FilePath.base text ≠ ['.', '.'] then FilePath.base text else ['_']

def getProfilePath (kubelet namespace' name : Str) : Str :=
  FilePath.join [profilesRootPath kubelet, pathSegment namespace', pathSegment (profileFile name)]

def getProfileOperatorPath (namespace' name : Str) : Str :=
  FilePath.join [operatorRoot, pathSegment namespace', pathSegment (profileFile name)]

/-- The path is clean, and at most two elements below the root. -/
def Inside (root path : Str) : Prop :=
  FilePath.clean path = path ∧ ∃ below : List Str, below.length ≤ 2 ∧ (∀ element ∈ below, FilePath.Proper element) ∧
    path = root ++ below.flatMap ('/' :: ·)

theorem cleanElements_segment (rooted : Bool) (path text : Str) : ∃ below : List Str, below.length ≤ 1 ∧
    (∀ element ∈ below, FilePath.Proper element) ∧
    FilePath.cleanElements rooted (path ++ '/' :: pathSegment text) =
      FilePath.cleanElements rooted path ++ below := by
  rw [FilePath.cleanElements_append]
  rcases FilePath.single_base text with slash | ⟨named, single⟩
  · have segment : pathSegment text = ['/'] := by rw [pathSegment, slash, if_pos (by decide)]
    refine ⟨[], by simp, by simp, ?_⟩
    rw [segment, append_nil]
    exact reverse_reverse _
  · have proper : FilePath.Proper (pathSegment text) ∨ pathSegment text = ['.'] := by
      unfold pathSegment
      split
      · next notDots =>
          by_cases dot : FilePath.base text = ['.']
          · exact Or.inr dot
          · exact Or.inl ⟨named, dot, notDots, single⟩
      · exact Or.inl ⟨by decide, by decide, by decide, by decide⟩
    rcases proper with proper | dot
    · refine ⟨[pathSegment text], by simp, by simpa using proper, ?_⟩
      rw [splitOn_eq_singleton proper.single]
      simp [FilePath.cleanStep, proper.named, proper.notDot, proper.notDots]
    · refine ⟨[], by simp, by simp, ?_⟩
      rw [dot, append_nil]
      exact reverse_reverse _

theorem cleanElements_ne_nil {root : Str} (isClean : FilePath.clean root = root) {char : Char}
    (member : char ∈ root) (named : char ≠ '/' ∧ char ≠ '.') :
    FilePath.cleanElements (root.head? = some '/') root ≠ [] := by
  intro none
  rw [← isClean, FilePath.clean_eq, none] at member
  unfold FilePath.text at member
  split at member
  · exact named.1 (mem_singleton.mp member)
  · exact named.2 (mem_singleton.mp member)

theorem inside_join {root : Str} (isClean : FilePath.clean root = root) {char : Char} (member : char ∈ root)
    (named : char ≠ '/' ∧ char ≠ '.') (first second : Str) :
    Inside root (FilePath.join [root, pathSegment first, pathSegment second]) := by
  have present : root ≠ [] := ne_nil_of_mem member
  have some' := cleanElements_ne_nil isClean member named
  obtain ⟨one, oneLength, oneProper, addOne⟩ := cleanElements_segment (root.head? = some '/') root first
  obtain ⟨two, twoLength, twoProper, addTwo⟩ :=
    cleanElements_segment (root.head? = some '/') (root ++ '/' :: pathSegment first) second
  have joined : FilePath.join [root, pathSegment first, pathSegment second] =
      FilePath.clean (root ++ '/' :: (pathSegment first ++ '/' :: pathSegment second)) := by
    simp [FilePath.join, present, List.intercalate]
  have added : FilePath.cleanElements (root.head? = some '/')
      (root ++ '/' :: (pathSegment first ++ '/' :: pathSegment second)) =
      FilePath.cleanElements (root.head? = some '/') root ++ (one ++ two) := by
    have shape : root ++ '/' :: (pathSegment first ++ '/' :: pathSegment second) =
        (root ++ '/' :: pathSegment first) ++ '/' :: pathSegment second := by simp
    rw [shape, addTwo, addOne, append_assoc]
  refine ⟨by rw [joined, FilePath.clean_clean], one ++ two, ?_, ?_, ?_⟩
  · rw [length_append]
    omega
  · exact fun element inside => (mem_append.mp inside).elim (oneProper element) (twoProper element)
  · rw [joined, FilePath.clean_append present some' added, isClean]

theorem kubeletDir_ne_nil (configured environment : Str) : kubeletDir configured environment ≠ [] := by
  unfold kubeletDir
  split
  · assumption
  split
  · assumption
  · decide

theorem join_two {path : Str} (present : path ≠ []) (other : Str) :
    FilePath.join [path, other] = FilePath.clean (path ++ '/' :: other) := by
  simp [FilePath.join, present, List.intercalate]

/-- A name that is put behind a path is in the text. -/
theorem mem_clean_append {path name : Str} (proper : FilePath.Proper name) {char : Char} (member : char ∈ name) :
    char ∈ FilePath.clean (path ++ '/' :: name) := by
  have elements : ∀ rooted, FilePath.cleanElements rooted (path ++ '/' :: name) =
      FilePath.cleanElements rooted path ++ [name] := by
    intro rooted
    rw [FilePath.cleanElements_append, splitOn_eq_singleton proper.single]
    simp [FilePath.cleanStep, proper.named, proper.notDot, proper.notDots]
  have inText : ∀ before : List Str, char ∈ ['/'].intercalate (before ++ [name]) := by
    intro before
    by_cases none : before = []
    · simpa [none, List.intercalate] using member
    · rw [FilePath.intercalate_append none]
      simp [member]
  rw [FilePath.clean_eq, elements, FilePath.text]
  split
  · exact mem_cons_of_mem _ (inText _)
  · rw [if_neg (by simp)]
    exact inText _

/-- The folder for the profiles has a name, whatever the kubelet directory is. -/
theorem clean_profilesRootPath {kubelet : Str} (present : kubelet ≠ []) :
    FilePath.clean (profilesRootPath kubelet) = profilesRootPath kubelet ∧ 'p' ∈ profilesRootPath kubelet := by
  have seccomp : 'p' ∈ kubeletSeccompRootPath kubelet := by
    rw [kubeletSeccompRootPath, join_two present]
    exact mem_clean_append ⟨by decide, by decide, by decide, by decide⟩ (by decide)
  rw [profilesRootPath, join_two (ne_nil_of_mem seccomp)]
  exact ⟨FilePath.clean_clean _, mem_clean_append ⟨by decide, by decide, by decide, by decide⟩ (by decide)⟩

/-- The files of seccomp profiles are inside of their root, whatever they are named. So are those of the operator,
and neither depends on how the kubelet is configured. -/
theorem profile_paths_inside (configured environment namespace' name : Str) :
    Inside (profilesRootPath (kubeletDir configured environment))
      (getProfilePath (kubeletDir configured environment) namespace' name) ∧
    Inside operatorRoot (getProfileOperatorPath namespace' name) := by
  obtain ⟨isClean, named⟩ := clean_profilesRootPath (kubeletDir_ne_nil configured environment)
  exact ⟨inside_join isClean named (by decide) _ _,
    inside_join (by decide) (by decide : 'v' ∈ operatorRoot) (by decide) _ _⟩

end SecurityProfiles
