import SecurityProfiles.Recorder.Rules
import SecurityProfiles.AppArmor.TextGrants

namespace SecurityProfiles

open List

/-- A tidy text stays tidy on both sides of a slash. -/
theorem Tidy.around_slash {first second : Str} (tidy : Tidy (first ++ '/' :: second)) :
    Tidy first ∧ Tidy second := by
  obtain ⟨atoms, allTidy, same⟩ := tidy
  induction atoms generalizing first with
  | nil => simp at same
  | cons atom rest ih =>
    obtain ⟨tidyAtom, tidyRest⟩ := Bool.and_eq_true_iff.mp (all_cons ▸ allTidy)
    rw [writeAtoms_cons] at same
    cases atom with
    | char c =>
      cases first with
      | nil => exact ⟨.of_chars (by simp), rest, tidyRest, (List.cons.inj same).2⟩
      | cons head first =>
        obtain ⟨isHead, others⟩ := List.cons.inj same
        obtain ⟨before, after⟩ := ih tidyRest others
        rw [isHead]
        exact ⟨(Tidy.single tidyAtom).append before, after⟩
    | var name =>
      have noSlash : '/' ∉ (Atom.var name).text := by
        rcases Bool.or_eq_true_iff.mp tidyAtom with named | named <;>
          · rw [of_decide_eq_true named]
            decide
      -- The slash comes behind the variable.
      rcases append_eq_append_iff.mp same with ⟨middle, inVar, inRest⟩ | ⟨middle, rfl, later⟩
      · cases middle with
        | nil =>
          obtain ⟨_, after⟩ := @ih [] tidyRest inRest
          rw [append_nil] at inVar
          exact ⟨inVar ▸ Tidy.single tidyAtom, after⟩
        | cons head middle =>
          have isSlash := (List.cons.inj inRest).1
          exfalso
          apply noSlash
          rw [inVar, isSlash]
          simp
      · obtain ⟨before, after⟩ := ih tidyRest later.symm
        exact ⟨(Tidy.single tidyAtom).append before, after⟩

theorem Tidy.slash : Tidy ['/'] := .of_chars (all_eq_true.mp (by decide))

theorem tidy_intercalate {elements : List Str} :
    Tidy (['/'].intercalate elements) ↔ ∀ element ∈ elements, Tidy element := by
  induction elements with
  | nil => simpa using (Tidy.of_chars (by simp) : Tidy [])
  | cons first rest ih =>
    cases rest with
    | nil => simp [List.intercalate]
    | cons second rest =>
      rw [intercalate_cons_cons, append_assoc, forall_mem_cons, ← ih]
      constructor
      · exact fun tidy => tidy.around_slash
      · exact fun ⟨before, after⟩ => before.append (Tidy.slash.append after)

variable {path : Str}

theorem Rooted.clean_eq (rooted : Rooted path) :
    FilePath.clean path = '/' :: ['/'].intercalate (FilePath.cleanElements true path) := if_pos rooted

theorem Tidy.clean (tidy : Tidy path) (rooted : Rooted path) : Tidy (FilePath.clean path) := by
  have elements : ∀ element ∈ FilePath.cleanElements true path, Tidy element := by
    intro element member
    have whole : Tidy (['/'].intercalate (path.splitOn '/')) := by rwa [intercalate_splitOn]
    exact tidy_intercalate.mp whole element (FilePath.mem_cleanElements member)
  rw [rooted.clean_eq]
  exact Tidy.slash.append (tidy_intercalate.mpr elements)

theorem Rooted.clean (rooted : Rooted path) : Rooted (FilePath.clean path) := by
  rw [rooted.clean_eq]
  rfl

/-- The part of a rooted path up to its last slash. -/
theorem Rooted.rdropWhile (rooted : Rooted path) :
    ∃ before base, path.rdropWhile (· ≠ '/') = before ++ ['/'] ∧ path = before ++ '/' :: base := by
  obtain ⟨tail, rfl⟩ := head?_eq_some_iff.mp rooted
  induction tail using List.reverseRecOn with
  | nil => exact ⟨[], [], by simp⟩
  | append_singleton tail last ih =>
    rw [← cons_append, rdropWhile_concat]
    by_cases slash : last = '/'
    · exact ⟨'/' :: tail, [], by simp [slash]⟩
    · obtain ⟨before, base, dropped, whole⟩ := ih rfl
      exact ⟨before, base ++ [last], by rw [if_pos (by simp [slash]), dropped], by simp [whole]⟩

theorem Rooted.of_append_slash {before : Str} {base : Str} (rooted : Rooted (before ++ '/' :: base)) :
    Rooted (before ++ ['/']) := by
  cases before with
  | nil => rfl
  | cons first rest => exact rooted

theorem dir_tidy (tidy : Tidy path) (rooted : Rooted path) :
    Tidy (FilePath.dir path) ∧ Rooted (FilePath.dir path) := by
  obtain ⟨before, base, dropped, rfl⟩ := rooted.rdropWhile
  have tidyBefore : Tidy (before ++ ['/']) := tidy.around_slash.1.append Tidy.slash
  rw [FilePath.dir, dropped]
  exact ⟨tidyBefore.clean rooted.of_append_slash, rooted.of_append_slash.clean⟩

theorem join_tidy {dir : Str} (tidy : Tidy dir) (rooted : Rooted dir) :
    Tidy (FilePath.join [dir, ['*']]) ∧ Rooted (FilePath.join [dir, ['*']]) := by
  have joined : FilePath.join [dir, ['*']] = FilePath.clean (dir ++ ['/', '*']) := by
    obtain ⟨tail, rfl⟩ := head?_eq_some_iff.mp rooted
    rfl
  have star : Tidy ['/', '*'] := .of_chars (all_eq_true.mp (by decide))
  rw [joined]
  exact ⟨(tidy.append star).clean (rooted.append _), (rooted.append _).clean⟩

namespace Recorder

theorem widened_tidy {paths : List Str} {path : Str} (tidy : Tidy path) (rooted : Rooted path) :
    Tidy (widened paths path) ∧ Rooted (widened paths path) := by
  unfold widened
  split
  · obtain ⟨tidyDir, rootedDir⟩ := dir_tidy tidy rooted
    exact join_tidy tidyDir rootedDir
  · exact ⟨tidy, rooted⟩

theorem ptraceRule_of_rooted {path : Str} (rooted : Rooted path) : ptraceRule path = none := by
  obtain ⟨tail, rfl⟩ := head?_eq_some_iff.mp rooted
  rfl

theorem normalizeCapability_valid {capability : Str} (member : capability ∈ validCapabilities) :
    normalizeCapability capability = capability := by
  suffices ∀ capability ∈ validCapabilities, normalizeCapability capability = capability from this capability member
  unfold validCapabilities
  simp only [map_cons, map_nil]
  repeat rw [String.toList_ofList]
  decide

theorem capabilityToString_valid {capability : Int} (low : 0 ≤ capability) (high : capability ≤ 40) :
    capabilityToString capability ∈ validCapabilities := by
  obtain ⟨number, rfl⟩ := Int.eq_ofNat_of_zero_le low
  have inRange : number < capabilities.length := by
    have : capabilities.length = 41 := rfl
    omega
  have same : capabilities = validCapabilities := rfl
  change (capabilities[number]?).getD _ ∈ validCapabilities
  rw [getElem?_eq_getElem inRange, Option.getD_some, ← same]
  exact getElem_mem inRange

/-- The file was accessed and not removed, and its path fits into the profile. -/
def AppArmorRecorder.Kept (recorder : AppArmorRecorder) (keys : List RecordingKey) (path : Str) : Prop :=
  path ∈ keptNames (recorder.accesses keys)

/-- The path is one of a program that a workload runs, or of a file that it maps and that is no known library. -/
def AppArmorRecorder.Executes (recorder : AppArmorRecorder) (keys : List RecordingKey) (path : Str) : Prop :=
  recorder.Kept keys path ∧ ∃ access, (path, access) ∈ recorder.accesses keys ∧
    (access.spawn = true ∨ access.exec = true ∧ isKnownLibrary recorder.programName path = false)

theorem classifyFileAccess_executes (programName fileName : Str) (access : FileAccess) :
    ((classifyFileAccess programName fileName access).execute ||
      (classifyFileAccess programName fileName access).library) = true ↔
    access.spawn = true ∨ access.exec = true ∧ isKnownLibrary programName fileName = false := by
  obtain ⟨read, write, exec, spawn⟩ := access
  cases spawn <;> cases exec <;> simp [classifyFileAccess, FileRule.none]

section accepted

variable {capable : Int → Prop} {recorder : AppArmorRecorder} (keys : List RecordingKey)

/-- The rules that the processing ends with. -/
def AppArmorRecorder.processing (recorder : AppArmorRecorder) (keys : List RecordingKey) : Processing :=
  (recorder.accesses keys).foldl (processFile recorder.programName) .start

theorem processes_accesses : Processes recorder.programName (recorder.accesses keys) (recorder.processing keys) :=
  processes_foldl _ _

variable {path : Str}

section

variable (consistent : Consistent capable recorder)
include consistent

theorem Consistent.accesses {access : FileAccess}
    (member : (path, access) ∈ recorder.accesses keys) : Normalized path := by
  simp only [AppArmorRecorder.accesses, mem_flatMap, mem_map, Sigma.exists] at member
  obtain ⟨key, _, name, found, entry, same⟩ := member
  obtain ⟨rfl, rfl⟩ := Prod.mk.inj same
  exact (consistent.filesOf key name (SortedMap.mem_keys.mpr ⟨found, SortedMap.mem_entries.mp entry⟩)).1

theorem Consistent.kept (kept : recorder.Kept keys path) : Tidy path ∧ Rooted path := by
  obtain ⟨⟨access, member⟩, present⟩ := mem_presentNames.mp (keptNames_subset kept)
  have normalized := consistent.accesses keys member
  exact ⟨normalized.tidy present, normalized.rooted⟩

theorem Consistent.ruled {wanted : FileRule → Bool}
    (member : path ∈ pathsWith (recorder.processing keys).rules wanted) : Tidy path ∧ Rooted path := by
  obtain ⟨rule, found, _⟩ := mem_pathsWith.mp member
  exact consistent.kept keys ((processes_accesses keys).lookup_iff.mp found).1

theorem Consistent.readWriteOf
    (member : path ∈ readWriteOf (recorder.processing keys)) : Tidy path ∧ Rooted path := by
  rcases mem_append.mp (Text.mem_compact_sort.mp member) with hugepage | ruled
  · rw [(((processes_accesses keys).hugepages path).mp hugepage).1]
    exact ⟨Tidy.slash, rfl⟩
  · exact consistent.ruled keys ruled

/-- All paths of the profile may stand in one. -/
theorem Consistent.entries (member : path ∈ (recorder.abstract keys).entries) : Tidy path ∧ Rooted path := by
  simp only [AppArmorAbstract.entries, mem_append, mem_executables_abstract, mem_libraries_abstract,
    mem_readOnly_abstract, mem_writeOnly_abstract, mem_readWrite_abstract, getAppArmorProcessed,
    processExecFsEvents, Text.mem_sort] at member
  rcases member with (found | found) | (found | found) | found
  · exact consistent.ruled keys found
  · exact consistent.ruled keys found
  · exact consistent.ruled keys found
  · exact consistent.ruled keys found
  · obtain ⟨plain, listed, rfl⟩ := mem_allowAnyFiles.mp found
    obtain ⟨tidy, rooted⟩ := consistent.readWriteOf keys listed
    exact widened_tidy tidy rooted

end

/-- The validation only has to look for paths that climb up. -/
theorem Consistent.valid_iff (consistent : Consistent (fun capability => 0 ≤ capability ∧ capability ≤ 40) recorder)
    {name : Str} (validName : profileNameChars name = true) :
    (newApparmorData name (recorder.abstract keys)).Valid ↔
      ∀ path, path ∈ (recorder.abstract keys).executables ∨
        path ∈ (recorder.abstract keys).libraries → traverses path = false := by
  have listed : ∀ {path}, path ∈ (recorder.abstract keys).entries →
      Tidy path ∧ Rooted path := consistent.entries keys
  have capable : ∀ capability ∈ (recorder.abstract keys).capabilities,
      capability ∈ validCapabilities := by
    intro capability member
    simp only [capabilities_abstract, getAppArmorProcessed, processCapabilities, Text.mem_compact_sort, mem_flatMap,
      mem_map] at member
    obtain ⟨key, _, number, recorded, rfl⟩ := member
    cases found : recorder.recordedCapabilities.lookup key with
    | none =>
      rw [found] at recorded
      cases recorded
    | some numbers =>
      rw [found] at recorded
      obtain ⟨low, high⟩ := consistent.capabilities key numbers found number recorded
      exact capabilityToString_valid low high
  have noPtrace : (recorder.abstract keys).ptrace = none := rfl
  generalize recorder.abstract keys = abstract at *
  have strict : ∀ path ∈ abstract.entries, strictPathRegex path = true := fun path member =>
    (listed member).1.strict (listed member).2
  have plain : ∀ path ∈ abstract.entries, ptraceRule path = none := fun path member =>
    ptraceRule_of_rooted (listed member).2
  simp only [AppArmorAbstract.entries, mem_append] at strict plain
  constructor
  · intro valid path member
    apply (valid.executables path _).2
    rw [newApparmorData_executables, newApparmorData_libraries, mem_append]
    exact member.imp (fun found => mem_filter.mpr ⟨found, by simp [plain path (Or.inl (Or.inl found))]⟩)
      fun found => mem_filter.mpr ⟨found, by simp [plain path (Or.inl (Or.inr found))]⟩
  · intro level
    constructor
    · exact Or.inr validName
    · intro path member
      rw [newApparmorData_readOnly, newApparmorData_writeOnly, newApparmorData_readWrite] at member
      simp only [mem_append, pathsOnly, mem_filter] at member
      apply strict
      tauto
    · intro capability member
      rw [newApparmorData_capabilities] at member
      obtain ⟨given, found, rfl⟩ := mem_map.mp member
      rw [normalizeCapability_valid (capable given found), normalizeCapability_valid (capable given found)]
      exact capable given found
    · intro rule member
      rcases mem_ptrace.mp member with ⟨rules, found, _⟩ | ⟨entry, found, access, isRule, _⟩
      · rw [noPtrace] at found
        cases found
      · rw [ptraceRule_of_rooted (listed found).2] at isRule
        cases isRule
    · intro path member
      rw [newApparmorData_executables, newApparmorData_libraries] at member
      simp only [mem_append, pathsOnly, mem_filter] at member
      have inLists : path ∈ abstract.executables ∨ path ∈ abstract.libraries := by tauto
      exact ⟨strict path (Or.inl inLists), level path inLists⟩

theorem mem_executables_or_libraries :
    path ∈ (recorder.abstract keys).executables ∨
        path ∈ (recorder.abstract keys).libraries ↔
      ∃ rule, (recorder.processing keys).rules.lookup path = some rule ∧ (rule.execute || rule.library) = true := by
  simp only [mem_executables_abstract, mem_libraries_abstract, getAppArmorProcessed, processExecFsEvents,
    Text.mem_sort]
  rw [mem_pathsWith, mem_pathsWith]
  change (∃ rule, (recorder.processing keys).rules.lookup path = some rule ∧ _) ∨
    (∃ rule, (recorder.processing keys).rules.lookup path = some rule ∧ _) ↔ _
  constructor
  · rintro (⟨rule, found, execute⟩ | ⟨rule, found, library⟩)
    · exact ⟨rule, found, by rw [execute]; rfl⟩
    · exact ⟨rule, found, by simp_all⟩
  · rintro ⟨rule, found, either⟩
    cases execute : rule.execute with
    | true => exact Or.inl ⟨rule, found, execute⟩
    | false => exact Or.inr ⟨rule, found, by simp_all⟩

theorem mergedRule_executes : ((mergedRule recorder.programName (recorder.accesses keys) path).execute ||
      (mergedRule recorder.programName (recorder.accesses keys) path).library) = true ↔
    ∃ access, (path, access) ∈ recorder.accesses keys ∧
      (access.spawn = true ∨ access.exec = true ∧ isKnownLibrary recorder.programName path = false) := by
  have parts := @mergedRule_part recorder.programName path (recorder.accesses keys)
    (fun rule => rule.execute || rule.library)
    (fun first second => by simp [FileRule.or, Bool.or_assoc, Bool.or_left_comm]) rfl
  simpa only [classifyFileAccess_executes] using parts

theorem executes_iff : recorder.Executes keys path ↔ recorder.Kept keys path ∧
    ((mergedRule recorder.programName (recorder.accesses keys) path).execute ||
      (mergedRule recorder.programName (recorder.accesses keys) path).library) = true := by
  rw [mergedRule_executes, AppArmorRecorder.Executes]

theorem mem_executed_recording : path ∈ (recorder.abstract keys).executables ∨
    path ∈ (recorder.abstract keys).libraries ↔ recorder.Executes keys path := by
  rw [mem_executables_or_libraries, executes_iff]
  simp only [(processes_accesses keys).lookup_iff, and_assoc, exists_and_left, exists_eq_left]
  rfl

end accepted

/-- A profile for recorded data is accepted if and only if no executed path climbs up. Paths that were cut off
because they exceed the size of a profile do not count. -/
theorem recording_accepted_iff {programName name : Str} {events : List Event}
    (named : ∀ event ∈ events, event.Names fun capability => 0 ≤ capability ∧ capability ≤ 40)
    (validName : profileNameChars name = true) (mode : AppArmorMode) (keys : List RecordingKey) :
    (∃ text, generateProfile name mode
        (some (abstractFromRecording (getAppArmorProcessed (record programName events) keys))) = .ok text) ↔
      ∀ path, (record programName events).Executes keys path → traverses path = false := by
  have consistent := consistent_record programName named
  simp only [← mem_executed_recording]
  rw [← consistent.valid_iff keys validName]
  constructor
  · rintro ⟨text, generated⟩
    exact (generateProfile_ok.mp generated).1
  · exact fun valid => ⟨_, generateProfile_ok.mpr ⟨valid, rfl⟩⟩

/-- The events of a workload that runs the given program. -/
def spawning (program : String) : List Event := [.file 1 (program.toList ++ [Char.ofNat 0]) 8]

theorem app_accepted : ∃ text, generateProfile "app".toList .enforce
    (some (abstractFromRecording (getAppArmorProcessed (record [] (spawning "/app")) [1]))) = .ok text := by
  refine (recording_accepted_iff ?_ (by decide) .enforce [1]).mpr ?_
  · simp [spawning, Event.Names]
  · rintro path ⟨_, access, member, _⟩
    have recorded : (record [] (spawning "/app")).accesses [1] = [("/app".toList, ⟨false, false, false, true⟩)] :=
      rfl
    rw [recorded] at member
    obtain ⟨rfl, _⟩ := Prod.mk.inj (mem_singleton.mp member)
    decide

/-- A program whose name starts with two dots is taken for one outside of the root. -/
theorem dots_program_refused : generateProfile "app".toList .enforce
    (some (abstractFromRecording (getAppArmorProcessed (record [] (spawning "/..app")) [1]))) =
      .error (.invalid (.directoryTraversal "/..app".toList)) := by
  rfl

end Recorder

end SecurityProfiles
