import SecurityProfiles.Recorder.Granted

namespace SecurityProfiles.Recorder

open List

section widening

variable {paths : List Str} {path : Str}

theorem dir_rooted (rooted : Rooted path) : ∃ elements, (∀ element ∈ elements, FilePath.Proper element) ∧
    FilePath.dir path = '/' :: ['/'].intercalate elements := by
  obtain ⟨before, base, dropped, whole⟩ := rooted.rdropWhile
  rw [whole] at rooted
  refine ⟨FilePath.cleanElements true (before ++ ['/']), fun _ => FilePath.proper_cleanElements, ?_⟩
  rw [FilePath.dir, dropped]
  exact rooted.of_append_slash.clean_eq

theorem proper_star : FilePath.Proper ['*'] := ⟨by decide, by decide, by decide, by decide⟩

/-- The path for all files of a directory. -/
theorem star_cases (rooted : Rooted path) :
    FilePath.dir (FilePath.join [FilePath.dir path, ['*']]) = FilePath.dir path ∧
      (FilePath.dir path = ['/'] ∧ FilePath.join [FilePath.dir path, ['*']] = ['/', '*'] ∨
        FilePath.dir path ≠ ['/'] ∧
          FilePath.join [FilePath.dir path, ['*']] = FilePath.dir path ++ ['/', '*']) := by
  obtain ⟨elements, proper, isDir⟩ := dir_rooted rooted
  have joined : FilePath.join [FilePath.dir path, ['*']] = FilePath.folder elements ++ ['*'] := by
    rw [isDir, ← FilePath.dir_folder proper not_mem_nil]
    exact FilePath.join_dir proper not_mem_nil proper_star
  refine ⟨by rw [joined, isDir, FilePath.dir_folder proper (by decide)], ?_⟩
  rw [joined, isDir, FilePath.folder_append]
  by_cases none : elements = []
  · exact Or.inl (by simp [none, List.intercalate])
  · refine Or.inr ⟨fun root => ?_, by simp [Text.intercalate_concat none]⟩
    obtain ⟨first, rest, rfl⟩ := exists_cons_of_ne_nil none
    have named := (proper first mem_cons_self).named
    cases rest <;> simp_all [List.intercalate]

/-- A directory is allowed once, and the files of other directories are not below it. -/
theorem nodup_allowAnyFilesFrom (dupDirs : SortedMap Str Nat) (nodup : paths.Nodup)
    (rooted : ∀ path ∈ paths, Rooted path) : (allowAnyFilesFrom dupDirs paths).Nodup := by
  fun_induction allowAnyFilesFrom dupDirs paths with
  | case1 => exact .nil
  | case2 dupDirs path rest dir count several ih =>
    obtain ⟨rootedPath, rootedRest⟩ := forall_mem_cons.mp rooted
    refine nodup_cons.mpr ⟨fun again => ?_, ih nodup.of_cons rootedRest⟩
    obtain ⟨other, member, found⟩ := (mem_allowAnyFilesFrom _ _).mp again
    have sameDir : FilePath.dir other = dir := by
      rcases found with ⟨_, same⟩ | ⟨_, same⟩
      · rw [← (star_cases (rootedRest other member)).1, ← same]
        exact (star_cases rootedPath).1
      · rw [← same]
        exact (star_cases rootedPath).1
    rw [sameDir, SortedMap.lookup_insert_self] at found
    simp at found
  | case3 dupDirs path rest dir count _ one ih =>
    obtain ⟨_, rootedRest⟩ := forall_mem_cons.mp rooted
    obtain ⟨notAgain, nodupRest⟩ := nodup_cons.mp nodup
    refine nodup_cons.mpr ⟨fun again => ?_, ih nodupRest rootedRest⟩
    obtain ⟨other, member, ⟨several, same⟩ | ⟨_, same⟩⟩ := (mem_allowAnyFilesFrom _ _).mp again
    · have sameDir : dir = FilePath.dir other := by
        rw [← (star_cases (rootedRest other member)).1, ← same]
      rw [← sameDir] at several
      omega
    · exact notAgain (same ▸ member)
  | case4 dupDirs path rest dir count _ _ ih => exact ih nodup.of_cons (forall_mem_cons.mp rooted).2

/-- A path with a final star matches the names in its directory, any other one only itself. -/
def Covers (allowed path : Str) : Prop :=
  allowed = path ∨ ∃ before name, allowed = before ++ ['/', '*'] ∧ path = before ++ '/' :: name ∧
    name ≠ [] ∧ '/' ∉ name

/-- The path is its directory, a slash and a name. -/
def Named (path : Str) : Prop :=
  ∃ name, name ≠ [] ∧ '/' ∉ name ∧
    (FilePath.dir path = ['/'] ∧ path = '/' :: name ∨ FilePath.dir path ≠ ['/'] ∧
      path = FilePath.dir path ++ '/' :: name)

theorem covers_star_iff (rooted : Rooted path) (plain : '*' ∉ path) :
    Covers (FilePath.join [FilePath.dir path, ['*']]) path ↔ Named path := by
  obtain ⟨start, isStar, isNamed⟩ : ∃ start, FilePath.join [FilePath.dir path, ['*']] = start ++ ['/', '*'] ∧
      ∀ name, path = start ++ '/' :: name ↔ FilePath.dir path = ['/'] ∧ path = '/' :: name ∨
        FilePath.dir path ≠ ['/'] ∧ path = FilePath.dir path ++ '/' :: name := by
    rcases (star_cases rooted).2 with ⟨root, star⟩ | ⟨below, star⟩
    · exact ⟨[], star, fun name => by simp [root]⟩
    · exact ⟨FilePath.dir path, star, fun name => by simp [below]⟩
  rw [isStar]
  constructor
  · rintro (same | ⟨before, name, isBefore, isPath, some', single⟩)
    · rw [← same] at plain
      simp at plain
    · rw [← append_cancel_right isBefore] at isPath
      exact ⟨name, some', single, (isNamed name).mp isPath⟩
  · rintro ⟨name, some', single, isPath⟩
    exact Or.inr ⟨start, name, rfl, (isNamed name).mpr isPath, some', single⟩

/-- The widened list has no duplicates and keeps the only path of a directory. It covers all paths if those that
share their directory are a directory, a slash and a name. -/
theorem widening_covers_iff (sorted : paths.Pairwise (· < ·)) (absolute : ∀ path ∈ paths, Rooted path)
    (plain : ∀ path ∈ paths, '*' ∉ path) :
    (allowAnyFiles paths).Nodup ∧
    (∀ path ∈ paths, (∀ other ∈ paths, FilePath.dir other = FilePath.dir path → other = path) →
      path ∈ allowAnyFiles paths) ∧
    ((∀ path ∈ paths, ∃ allowed ∈ allowAnyFiles paths, Covers allowed path) ↔
      ∀ path ∈ paths, (∃ other ∈ paths, other ≠ path ∧ FilePath.dir other = FilePath.dir path) → Named path) := by
  have nodup : paths.Nodup := sorted.imp fun less => ne_of_lt less
  have single : ∀ path ∈ paths, ¬(∃ other ∈ paths, other ≠ path ∧ FilePath.dir other = FilePath.dir path) →
      path ∈ allowAnyFiles paths := fun path member alone =>
    mem_allowAnyFiles.mpr ⟨path, member, (widened_iff nodup member).mpr (Or.inr ⟨alone, rfl⟩)⟩
  refine ⟨nodup_allowAnyFilesFrom _ nodup absolute, fun path member only => single path member ?_, ?_, ?_⟩
  · rintro ⟨other, isOther, different, sameDir⟩
    exact different (only other isOther sameDir)
  · intro covered path member shares
    obtain ⟨allowed, isAllowed, covers⟩ := covered path member
    obtain ⟨file, isFile, widens⟩ := mem_allowAnyFiles.mp isAllowed
    refine (covers_star_iff (absolute path member) (plain path member)).mp ?_
    rcases (widened_iff nodup isFile).mp widens with ⟨_, rfl⟩ | ⟨alone, rfl⟩
    · -- A star that covers the path is the one of its directory.
      have sameDir : FilePath.dir path = FilePath.dir file := by
        rw [← (star_cases (absolute file isFile)).1]
        rcases covers with same | ⟨before, name, isBefore, isPath, _, noSlash⟩
        · rw [same]
        · rw [isBefore, isPath, FilePath.dir_append noSlash, FilePath.dir_append (by decide)]
      rwa [sameDir]
    · rcases covers with rfl | ⟨before, _, isBefore, _⟩
      · exact absurd shares alone
      · exact absurd (by simp [isBefore]) (plain allowed isFile)
  · intro named path member
    by_cases shares : ∃ other ∈ paths, other ≠ path ∧ FilePath.dir other = FilePath.dir path
    · refine ⟨_, mem_allowAnyFiles.mpr ⟨path, member, (widened_iff nodup member).mpr (Or.inl ⟨shares, rfl⟩)⟩, ?_⟩
      exact (covers_star_iff (absolute path member) (plain path member)).mpr (named path member shares)
    · exact ⟨path, single path member shares, Or.inl rfl⟩

theorem etc_covered : ∃ allowed ∈ allowAnyFiles ["/etc/a".toList, "/etc/b".toList],
    Covers allowed "/etc/a".toList := by
  refine (widening_covers_iff (by decide) (by simp [Rooted]) (by decide)).2.2.mpr ?_ _ mem_cons_self
  intro path member _
  rcases mem_cons.mp member with rfl | member
  · exact ⟨['a'], by decide, by decide, Or.inr ⟨by decide, by decide⟩⟩
  · rw [mem_singleton.mp member]
    exact ⟨['b'], by decide, by decide, Or.inr ⟨by decide, by decide⟩⟩

/-- The root is not covered anymore when a file in it is read and written, too. -/
theorem root_not_covered : ¬∃ allowed ∈ allowAnyFiles ["/".toList, "/a".toList], Covers allowed "/".toList := by
  have widened : allowAnyFiles ["/".toList, "/a".toList] = ["/*".toList] := by decide
  rw [widened]
  rintro ⟨allowed, member, covers⟩
  rw [mem_singleton.mp member] at covers
  rcases covers with same | ⟨before, name, _, isPath, some', _⟩
  · exact absurd same (by decide)
  · have length := congrArg List.length isPath
    have positive := length_pos_iff.mpr some'
    rw [length_append, length_cons] at length
    change 1 = _ at length
    omega

end widening

section classified

/-- The profile allows reading the path by its abstractions. -/
def knownRead (programName path : Str) : Bool :=
  isKnownFile path knownReadPrefixes || isKnownLibrary programName path

def knownWrite (path : Str) : Bool := isKnownFile path knownWritePrefixes

def AppArmorRecorder.Records (recorder : AppArmorRecorder) (keys : List RecordingKey) (path : Str)
    (flag : FileAccess → Bool) : Prop :=
  ∃ access, (path, access) ∈ recorder.accesses keys ∧ flag access = true

def AppArmorRecorder.Denies (recorder : AppArmorRecorder) (keys : List RecordingKey) (path : Str) : Prop :=
  recorder.Records keys path (·.read) ∧ path ∈ (processExecFsEvents recorder keys).writeOnlyPaths ∨
    recorder.Records keys path (·.write) ∧ path ∈ (processExecFsEvents recorder keys).readOnlyPaths

variable {recorder : AppArmorRecorder} {keys : List RecordingKey} {path : Str}

variable (notSpawned : ¬recorder.Records keys path (·.spawn)) (notMapped : ¬recorder.Records keys path (·.exec))

include notSpawned notMapped

theorem rule_iff {part : FileRule → Bool} {flag : FileAccess → Bool} {known : Bool}
    (parts : ∀ first second, part (first.or second) = (part first || part second)) (empty : part .none = false)
    (plain : ∀ access : FileAccess, access.spawn = false → access.exec = false →
      part (classifyFileAccess recorder.programName path access) = (flag access && !known)) :
    part (recorder.rule keys path) = true ↔ recorder.Records keys path flag ∧ known = false := by
  have isPlain : ∀ access, (path, access) ∈ recorder.accesses keys →
      part (classifyFileAccess recorder.programName path access) = (flag access && !known) := fun access member =>
    plain access (Bool.of_not_eq_true fun spawned => notSpawned ⟨access, member, spawned⟩)
      (Bool.of_not_eq_true fun mapped => notMapped ⟨access, member, mapped⟩)
  rw [AppArmorRecorder.rule, mergedRule_part parts empty]
  constructor
  · rintro ⟨access, member, needed⟩
    rw [isPlain access member, Bool.and_eq_true] at needed
    exact ⟨⟨access, member, needed.1⟩, by simpa using needed.2⟩
  · rintro ⟨⟨access, member, flagged⟩, unknown⟩
    exact ⟨access, member, by rw [isPlain access member, flagged, unknown]; rfl⟩

theorem rule_read : (recorder.rule keys path).read = true ↔
    recorder.Records keys path (·.read) ∧ knownRead recorder.programName path = false :=
  rule_iff notSpawned notMapped (fun _ _ => rfl) rfl fun access spawn exec => by
    simp [classifyFileAccess, spawn, exec, knownRead]

theorem rule_write : (recorder.rule keys path).write = true ↔
    recorder.Records keys path (·.write) ∧ knownWrite path = false :=
  rule_iff notSpawned notMapped (fun _ _ => rfl) rfl fun access spawn exec => by
    simp [classifyFileAccess, spawn, exec, knownWrite]

/-- A recorded access is denied if and only if the path was read and written, it fits into the profile, and the
abstractions allow one of the two accesses and not the other: the rule then has the other access only, and the
profile denies the one that the abstractions allow. -/
theorem recorded_denied_iff : recorder.Denies keys path ↔
    recorder.Records keys path (·.read) ∧ recorder.Records keys path (·.write) ∧ recorder.Kept keys path ∧
      knownRead recorder.programName path ≠ knownWrite path := by
  have reads := rule_read notSpawned notMapped
  have writes := rule_write notSpawned notMapped
  have notExecuted : ((recorder.rule keys path).execute || (recorder.rule keys path).library) = false := by
    rw [← Bool.not_eq_true]
    refine (mergedRule_executes keys).not.mpr ?_
    rintro ⟨access, member, spawned | ⟨mapped, _⟩⟩
    · exact notSpawned ⟨access, member, spawned⟩
    · exact notMapped ⟨access, member, mapped⟩
  obtain ⟨notSpawned, notMapped⟩ := Bool.or_eq_false_iff.mp notExecuted
  have isWriteOnly : recorder.WriteOnly keys path ↔ recorder.Kept keys path ∧
      (recorder.rule keys path).write = true ∧ ¬(recorder.rule keys path).read = true := by
    simp [AppArmorRecorder.WriteOnly, FileRule.readable, notSpawned, notMapped]
  have isReadOnly : recorder.ReadOnly keys path ↔ recorder.Kept keys path ∧
      (recorder.rule keys path).read = true ∧ ¬(recorder.rule keys path).write = true := by
    simp [AppArmorRecorder.ReadOnly, notSpawned, notMapped, and_comm]
  rw [AppArmorRecorder.Denies, mem_writeOnlyPaths, mem_readOnlyPaths, isWriteOnly, isReadOnly, reads, writes]
  constructor
  · rintro (⟨isRead, kept, ⟨isWritten, unknown⟩, known⟩ | ⟨isWritten, kept, ⟨isRead, unknown⟩, known⟩)
    · exact ⟨isRead, isWritten, kept, fun same => known ⟨isRead, same.trans unknown⟩⟩
    · exact ⟨isRead, isWritten, kept, fun same => known ⟨isWritten, same.symm.trans unknown⟩⟩
  · rintro ⟨isRead, isWritten, kept, differ⟩
    cases unknown : knownWrite path with
    | false => exact Or.inl ⟨isRead, kept, ⟨isWritten, rfl⟩, fun reads => differ (reads.2.trans unknown.symm)⟩
    | true =>
      rw [unknown, ne_eq, Bool.not_eq_true] at differ
      exact Or.inr ⟨isWritten, kept, ⟨isRead, differ⟩, fun writes => Bool.noConfusion writes.2⟩

omit notSpawned notMapped

/-- Two keys share a file: one reads it, the other one writes it, and the profile for both allows both. -/
theorem shared_not_denied :
    ¬(record [] [.file 1 "/data/a\x00".toList 1, .file 2 "/data/a\x00".toList 2]).Denies [1, 2]
    "/data/a".toList := by
  have accesses : (record [] [.file 1 "/data/a\x00".toList 1, .file 2 "/data/a\x00".toList 2]).accesses [1, 2] =
      [("/data/a".toList, ⟨true, false, false, false⟩), ("/data/a".toList, ⟨false, true, false, false⟩)] := rfl
  rw [recorded_denied_iff]
  · rintro ⟨_, _, _, differ⟩
    exact differ rfl
  all_goals
    rintro ⟨access, member, flagged⟩
    rw [accesses] at member
    simp only [mem_cons, Prod.mk.injEq, true_and, not_mem_nil, or_false] at member
    rcases member with rfl | rfl <;> cases flagged

/-- A workload that reads and writes `/dev/random` may not read it under its profile. -/
theorem random_read_denied : (record [] [accessing "/dev/random" 3]).Records [1] "/dev/random".toList (·.read) ∧
    "/dev/random".toList ∈ (processExecFsEvents (record [] [accessing "/dev/random" 3]) [1]).writeOnlyPaths :=
  ⟨⟨⟨true, true, false, false⟩, mem_singleton_self _, rfl⟩, mem_singleton_self _⟩

end classified

section disjoint

def FileProcessed.lists (processed : FileProcessed) : List (List Str) :=
  [processed.allowedExecutables, processed.allowedLibraries, processed.readOnlyPaths, processed.writeOnlyPaths,
    processed.readWritePaths]

/-- No path for reading and writing is also one for reading only, or one for writing only. -/
def FileProcessed.Apart (processed : FileProcessed) : Prop :=
  processed.readOnlyPaths.Disjoint processed.readWritePaths ∧
    processed.writeOnlyPaths.Disjoint processed.readWritePaths

/-- A path that is only read or only written is the one for all files of a directory with several files that are
read and written, or it is the root, huge pages are used, and no other file in the root is read and written. -/
def AppArmorRecorder.Overlaps (recorder : AppArmorRecorder) (keys : List RecordingKey) : Prop :=
  ∃ path, (recorder.ReadOnly keys path ∨ recorder.WriteOnly keys path) ∧
    ((∃ file, recorder.ReadWrite keys file ∧ recorder.Shares keys file ∧
      path = FilePath.join [FilePath.dir file, ['*']]) ∨
      path = ['/'] ∧ (∃ access, (anonHugepage, access) ∈ recorder.accesses keys) ∧ ¬recorder.Shares keys path)

variable {recorder : AppArmorRecorder} {keys : List RecordingKey} {path : Str}

theorem nodup_pathsWith (rules : SortedMap Str FileRule) (wanted : FileRule → Bool) :
    (Text.sort (pathsWith rules wanted)).Nodup := by
  refine (Text.pairwise_sort ?_).imp fun less => ne_of_lt less
  exact List.Nodup.sublist (filter_sublist.map Sigma.fst) rules.nodupKeys

theorem nodup_lists (consistent : Consistent (fun _ => True) recorder) :
    ∀ list ∈ (processExecFsEvents recorder keys).lists, list.Nodup := by
  intro list listed
  simp only [FileProcessed.lists, mem_cons, not_mem_nil, or_false] at listed
  rcases listed with rfl | rfl | rfl | rfl | rfl
  · exact nodup_pathsWith _ _
  · exact nodup_pathsWith _ _
  · exact nodup_pathsWith _ _
  · exact nodup_pathsWith _ _
  · refine (Text.pairwise_sort ?_).imp fun less => ne_of_lt less
    exact nodup_allowAnyFilesFrom _ (Text.nodup_compact_sort _) fun path member =>
      (consistent.readWriteOf keys member).2

/-- A path that is only read or only written is opened for reading and writing only as the path of a whole directory
or as the root: its own rule does not have both accesses. -/
theorem opensBoth_iff (one : recorder.ReadOnly keys path ∨ recorder.WriteOnly keys path) :
    recorder.OpensBoth keys path ↔
      (∃ file, recorder.ReadWrite keys file ∧ recorder.Shares keys file ∧
        path = FilePath.join [FilePath.dir file, ['*']]) ∨
      path = ['/'] ∧ (∃ access, (anonHugepage, access) ∈ recorder.accesses keys) ∧ ¬recorder.Shares keys path := by
  constructor
  · rintro ⟨file, both, ⟨shares, rfl⟩ | ⟨alone, rfl⟩⟩
    · exact Or.inl ⟨file, both, shares, rfl⟩
    · rcases both with ⟨root, hugepage⟩ | ⟨_, rule⟩
      · exact Or.inr ⟨root, hugepage, alone⟩
      · rw [Bool.and_eq_true] at rule
        rcases one with ⟨_, onlyRead⟩ | ⟨_, onlyWritten⟩
        · simp [rule.1] at onlyRead
        · simp [rule.2] at onlyWritten
  · rintro (⟨file, both, shares, same⟩ | ⟨root, hugepage, alone⟩)
    · exact ⟨file, both, Or.inl ⟨shares, same⟩⟩
    · exact ⟨path, Or.inl ⟨root, hugepage⟩, Or.inr ⟨alone, rfl⟩⟩

/-- The lists have no duplicates, and no path is in the list for reading only and in that for writing only. The list
for reading and writing has no path in common with one of them if and only if the recorded paths do not overlap. -/
theorem recorded_lists_disjoint (programName : Str) (events : List Event) (keys : List RecordingKey) :
    (∀ list ∈ (processExecFsEvents (record programName events) keys).lists, list.Nodup) ∧
    (processExecFsEvents (record programName events) keys).readOnlyPaths.Disjoint
      (processExecFsEvents (record programName events) keys).writeOnlyPaths ∧
    ((processExecFsEvents (record programName events) keys).Apart ↔
      ¬(record programName events).Overlaps keys) := by
  have consistent := @consistent_record (fun _ => True) programName events fun event _ => by
    cases event <;> exact trivial
  generalize record programName events = recorder at *
  refine ⟨nodup_lists consistent, fun path read written => ?_, ?_, ?_⟩
  · have onlyRead := (mem_readOnlyPaths.mp read).2
    have onlyWritten := (mem_writeOnlyPaths.mp written).2
    simp_all
  · rintro ⟨apartRead, apartWritten⟩ ⟨path, one, opens⟩
    have both := mem_readWritePaths.mpr ((opensBoth_iff one).mpr opens)
    rcases one with read | written
    · exact apartRead (mem_readOnlyPaths.mpr read) both
    · exact apartWritten (mem_writeOnlyPaths.mpr written) both
  · intro never
    have apart : ∀ path, recorder.ReadOnly keys path ∨ recorder.WriteOnly keys path →
        path ∉ (processExecFsEvents recorder keys).readWritePaths := fun path one both =>
      never ⟨path, one, (opensBoth_iff one).mp (mem_readWritePaths.mp both)⟩
    exact ⟨fun path read => apart path (Or.inl (mem_readOnlyPaths.mp read)),
      fun path written => apart path (Or.inr (mem_writeOnlyPaths.mp written))⟩

/-- A file with a long number in its name is read, and two others in its directory are read and written. -/
theorem numbered_paths_overlap : ∃ path,
    path ∈ (processExecFsEvents
      (record [] [accessing "/tmp/123456" 1, accessing "/tmp/a" 3, accessing "/tmp/b" 3]) [1]).readOnlyPaths ∧
    path ∈ (processExecFsEvents
      (record [] [accessing "/tmp/123456" 1, accessing "/tmp/a" 3, accessing "/tmp/b" 3]) [1]).readWritePaths :=
  ⟨"/tmp/*".toList, mem_singleton_self _, mem_singleton_self _⟩

end disjoint

end SecurityProfiles.Recorder
