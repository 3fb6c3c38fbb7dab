import SecurityProfiles.Recorder.Accepted

namespace SecurityProfiles

open List

theorem Tidy.readAtoms {text : Str} (tidy : Tidy text) {atoms : List Atom} (read : readAtoms text = some atoms) :
    atoms.all Atom.isTidy = true ∧ text = writeAtoms atoms := by
  obtain ⟨written, allTidy, rfl⟩ := tidy
  rw [readAtoms_writeAtoms (Tidy.strict_atoms allTidy)] at read
  obtain rfl := Option.some.inj read
  exact ⟨allTidy, rfl⟩

/-- A tidy text without variables is one of plain characters and wildcards. -/
theorem Tidy.chars {text : Str} (tidy : Tidy text) (bare : '@' ∉ text) :
    (text.map Atom.char).all Atom.isTidy = true ∧ writeAtoms (text.map .char) = text := by
  obtain ⟨atoms, allTidy, rfl⟩ := tidy
  have same : (writeAtoms atoms).map Atom.char = atoms := by
    induction atoms with
    | nil => rfl
    | cons atom rest ih =>
      rw [writeAtoms_cons] at bare ⊢
      rw [mem_append, not_or] at bare
      have others := ih (Bool.and_eq_true_iff.mp (all_cons ▸ allTidy)).2 bare.2
      cases atom with
      | char c => exact congrArg (Atom.char c :: ·) others
      | var name => exact absurd mem_cons_self bare.1
  rw [same]
  exact ⟨allTidy, rfl⟩

/-- A file matches the rule for all files of its directory. -/
theorem pathMatches_star {before base : Str} {file : List Atom} (tidy : Tidy (before ++ '/' :: base))
    (noSlash : '/' ∉ base) (bare : '@' ∉ base) (read : readAtoms (before ++ '/' :: base) = some file) :
    pathMatches (before ++ ['/', '*']) file = true := by
  obtain ⟨⟨atoms, allTidy, rfl⟩, tidyBase⟩ := tidy.around_slash
  obtain ⟨tidyChars, written⟩ := tidyBase.chars bare
  have strict : (atoms ++ [Atom.char '/']).all Atom.isStrict = true := by
    rw [all_append, Tidy.strict_atoms allTidy]
    rfl
  have shape : writeAtoms atoms ++ '/' :: base = writeAtoms (atoms ++ [.char '/'] ++ base.map .char) := by
    rw [writeAtoms_append, writeAtoms_append, written]
    simp [writeAtoms, Atom.text]
  have allStrict : (atoms ++ [Atom.char '/'] ++ base.map Atom.char).all Atom.isStrict = true := by
    rw [all_append, strict, Tidy.strict_atoms tidyChars]
    rfl
  rw [shape, readAtoms_writeAtoms allStrict] at read
  obtain rfl := Option.some.inj read
  have rule : writeAtoms atoms ++ ['/', '*'] = writeAtoms (atoms ++ [.char '/'] ++ [.char '*']) := by
    simp [writeAtoms, Atom.text]
  rw [rule, pathMatches_writeAtoms (by rw [all_append, strict]; rfl), tokens_append strict (by simp)]
  refine Glob.accepts_append (accepts_tokens_self strict) ?_
  have wild : ∀ symbol ∈ base.map Atom.char, Atom.isWild symbol = true := by
    simp only [forall_mem_map, Atom.isWild, decide_eq_true_eq]
    rintro c member rfl
    exact noSlash member
  rw [← append_nil (base.map Atom.char)]
  exact Glob.accepts_run_append wild rfl

/-- All rules on files come from the lists of the profile. -/
theorem AppArmorAbstract.mem_entries {abstract : AppArmorAbstract} {permission : Permission} {path : Str}
    (listed : path ∈ abstract.allowEntries permission ∨ path ∈ abstract.denyEntries permission) :
    path ∈ abstract.entries := by
  cases permission <;>
    simp only [AppArmorAbstract.allowEntries, AppArmorAbstract.denyEntries, AppArmorAbstract.entries, mem_append,
      not_mem_nil, or_false] at listed ⊢ <;>
    tauto

namespace Recorder

/-- The path is in its shortest form, and its last element has no variable. -/
def Plain (path : Str) : Prop := FilePath.clean path = path ∧ '@' ∉ path.rtakeWhile (· ≠ '/')

instance (path : Str) : Decidable (Plain path) := inferInstanceAs (Decidable (_ ∧ _))

theorem Plain.pathMatches {path : Str} (plain : Plain path) (tidy : Tidy path) (rooted : Rooted path)
    {file : List Atom} (read : readAtoms path = some file) :
    pathMatches (FilePath.join [FilePath.dir path, ['*']]) file = true := by
  obtain ⟨cleaned, bare⟩ := plain
  obtain ⟨elements, base, proper, noSlash, shape⟩ :
    ∃ elements base, (∀ element ∈ elements, FilePath.Proper element) ∧
      '/' ∉ base ∧ path = FilePath.folder elements ++ base := by
    have proper : ∀ element ∈ FilePath.cleanElements true path, FilePath.Proper element :=
      fun _ => FilePath.proper_cleanElements
    rw [rooted.clean_eq] at cleaned
    rcases eq_nil_or_concat' (FilePath.cleanElements true path) with none | ⟨init, last, some'⟩
    · refine ⟨[], [], by simp, by simp, ?_⟩
      rw [← cleaned, none]
      rfl
    · rw [some'] at cleaned proper
      exact ⟨init, last, fun element member => proper element (mem_append_left _ member),
        (proper last (by simp)).single, by rw [FilePath.folder_append, cleaned]⟩
  have star : FilePath.Proper ['*'] := ⟨by decide, by decide, by decide, by decide⟩
  obtain ⟨before, folder⟩ := FilePath.folder_eq elements
  rw [shape, FilePath.join_dir proper noSlash star, folder, append_assoc]
  rw [shape, folder, append_assoc] at tidy read bare
  refine pathMatches_star tidy noSlash ?_ read
  have taken : (before ++ (['/'] ++ base)).rtakeWhile (· ≠ '/') = base := by
    have all : ∀ char ∈ base.reverse, decide (char ≠ '/') = true := by
      intro char member
      simp only [decide_eq_true_eq]
      rintro rfl
      exact noSlash (mem_reverse.mp member)
    rw [← append_assoc, List.rtakeWhile, reverse_append, takeWhile_append_of_pos all]
    simp
  rwa [taken] at bare

namespace AppArmorRecorder

variable (recorder : AppArmorRecorder) (keys : List RecordingKey)

def rule (path : Str) : FileRule := mergedRule recorder.programName (recorder.accesses keys) path

def ReadOnly (path : Str) : Prop :=
  recorder.Kept keys path ∧
    (!(recorder.rule keys path).write && (recorder.rule keys path).read && !(recorder.rule keys path).execute &&
      !(recorder.rule keys path).library) = true

def WriteOnly (path : Str) : Prop :=
  recorder.Kept keys path ∧ ((recorder.rule keys path).write && !(recorder.rule keys path).readable) = true

/-- The file is read and written, or stands for huge pages. -/
def ReadWrite (path : Str) : Prop :=
  (path = ['/'] ∧ ∃ access, (anonHugepage, access) ∈ recorder.accesses keys) ∨
    recorder.Kept keys path ∧ ((recorder.rule keys path).write && (recorder.rule keys path).readable) = true

/-- Another file of the same directory is read and written. -/
def Shares (path : Str) : Prop :=
  ∃ other, other ≠ path ∧ recorder.ReadWrite keys other ∧ FilePath.dir other = FilePath.dir path

/-- The path is the one by which a file is opened for reading and writing. -/
def OpensBoth (path : Str) : Prop :=
  ∃ file, recorder.ReadWrite keys file ∧
    (recorder.Shares keys file ∧ path = FilePath.join [FilePath.dir file, ['*']] ∨
      ¬recorder.Shares keys file ∧ path = file)

def OpensRead (path : Str) : Prop :=
  recorder.Executes keys path ∨ recorder.ReadOnly keys path ∨ recorder.OpensBoth keys path

def OpensWrite (path : Str) : Prop := recorder.WriteOnly keys path ∨ recorder.OpensBoth keys path

/-- The capability for raw input and output was used. -/
def UsesRawio : Prop :=
  ∃ key ∈ keys, ∃ capability ∈ (recorder.recordedCapabilities.lookup key).getD [],
    normalizeCapability (capabilityToString capability) = "sys_rawio".toList

end AppArmorRecorder

section lists

variable {recorder : AppArmorRecorder} {keys : List RecordingKey} {path : Str}

theorem widened_iff {paths : List Str} (nodup : paths.Nodup) (member : path ∈ paths) {allowed : Str} :
    allowed = widened paths path ↔
      ((∃ other ∈ paths, other ≠ path ∧ FilePath.dir other = FilePath.dir path) ∧
        allowed = FilePath.join [FilePath.dir path, ['*']]) ∨
      (¬(∃ other ∈ paths, other ≠ path ∧ FilePath.dir other = FilePath.dir path) ∧ allowed = path) := by
  have several : 1 < (paths.map FilePath.dir).count (FilePath.dir path) ↔
      ∃ other ∈ paths, other ≠ path ∧ FilePath.dir other = FilePath.dir path := by
    have split : (paths.map FilePath.dir).count (FilePath.dir path) =
        1 + ((paths.erase path).map FilePath.dir).count (FilePath.dir path) := by
      rw [((perm_cons_erase member).map FilePath.dir).count_eq, map_cons, count_cons_self, Nat.add_comm]
    rw [split, Nat.lt_add_right_iff_pos, count_pos_iff, mem_map]
    apply exists_congr
    intro other
    rw [nodup.mem_erase_iff]
    tauto
  unfold widened
  split
  · next here => simp [several.mp here]
  · next here => simp [several.not.mp here]

theorem mem_pathsWith_processing {wanted : FileRule → Bool} :
    path ∈ pathsWith (recorder.processing keys).rules wanted ↔
      recorder.Kept keys path ∧ wanted (recorder.rule keys path) = true := by
  simp only [mem_pathsWith, (processes_accesses keys).lookup_iff, and_assoc, exists_and_left, exists_eq_left]
  rfl

theorem mem_readOnlyPaths : path ∈ (processExecFsEvents recorder keys).readOnlyPaths ↔
    recorder.ReadOnly keys path :=
  Text.mem_sort.trans mem_pathsWith_processing

theorem mem_writeOnlyPaths :
    path ∈ (processExecFsEvents recorder keys).writeOnlyPaths ↔ recorder.WriteOnly keys path :=
  Text.mem_sort.trans mem_pathsWith_processing

theorem mem_readWriteOf : path ∈ readWriteOf (recorder.processing keys) ↔ recorder.ReadWrite keys path := by
  unfold readWriteOf
  rw [Text.mem_compact_sort, mem_append, (processes_accesses keys).hugepages, mem_pathsWith_processing]
  rfl

theorem mem_readWritePaths :
    path ∈ (processExecFsEvents recorder keys).readWritePaths ↔ recorder.OpensBoth keys path := by
  refine Text.mem_sort.trans (mem_allowAnyFiles.trans (exists_congr fun file => ?_))
  change file ∈ readWriteOf (recorder.processing keys) ∧
    path = widened (readWriteOf (recorder.processing keys)) file ↔ _
  have shares :
      (∃ other ∈ readWriteOf (recorder.processing keys), other ≠ file ∧ FilePath.dir other = FilePath.dir file) ↔
      recorder.Shares keys file := by
    apply exists_congr
    intro other
    rw [mem_readWriteOf]
    tauto
  have nodup : (readWriteOf (recorder.processing keys)).Nodup := Text.nodup_compact_sort _
  rw [← mem_readWriteOf]
  refine and_congr_right fun member => ?_
  rw [widened_iff nodup member, shares]

theorem mem_readOnly_recording : path ∈ (recorder.abstract keys).readOnly ↔
    recorder.ReadOnly keys path := (mem_readOnly_abstract _).trans mem_readOnlyPaths

theorem mem_writeOnly_recording : path ∈ (recorder.abstract keys).writeOnly ↔
    recorder.WriteOnly keys path := (mem_writeOnly_abstract _).trans mem_writeOnlyPaths

theorem mem_readWrite_recording : path ∈ (recorder.abstract keys).readWrite ↔
    recorder.OpensBoth keys path := (mem_readWrite_abstract _).trans mem_readWritePaths

end lists

theorem allowMount_recording {recorder : AppArmorRecorder} {keys : List RecordingKey} :
    (recorder.abstract keys).allowMount = true ↔ recorder.UsesRawio keys := by
  rw [AppArmorAbstract.allowMount, decide_eq_true_eq]
  simp only [capabilities_abstract, getAppArmorProcessed, processCapabilities, normalizeCapabilities, mem_map,
    Text.mem_compact_sort, mem_flatMap, AppArmorRecorder.UsesRawio]
  constructor
  · rintro ⟨_, ⟨key, listed, capability, recorded, rfl⟩, same⟩
    exact ⟨key, listed, capability, recorded, same⟩
  · rintro ⟨key, listed, capability, recorded, same⟩
    exact ⟨_, ⟨key, listed, capability, recorded, rfl⟩, same⟩

section text

variable {capable : Int → Prop} {recorder : AppArmorRecorder} {keys : List RecordingKey} {name text : Str}
  (consistent : Consistent capable recorder)
  (generated : generateProfile name .enforce (some (recorder.abstract keys)) = .ok text)

include consistent in
theorem anyMatches_recording (keys : List RecordingKey) {entries : List Str} {opens : Str → Prop} {file : List Atom}
    (listed : ∀ path ∈ entries, path ∈ (recorder.abstract keys).entries)
    (same : ∀ path, path ∈ entries ↔ opens path) :
    anyMatches entries file = true ↔ ∃ path, opens path ∧ pathMatches path file = true := by
  rw [anyMatches_iff]
  apply exists_congr
  intro path
  rw [← same]
  refine and_congr_right fun member =>
    and_iff_right (ptraceRule_of_rooted (consistent.entries keys (listed path member)).2)

include consistent generated in
/-- What the text of a recording grants for a recorded file, by the recorded accesses. A rule that opens the file is
needed, and no path with the opposite access alone may match it. -/
theorem grants_recording {path : Str} {file : List Atom} (kept : recorder.Kept keys path)
    (elsewhere : "/sys/firmware/".toList.isPrefixOf path = false) (read : readAtoms path = some file) :
    (grants (readProfile text) (.file file .read) = true ↔
      ((∃ rule, recorder.OpensRead keys rule ∧ pathMatches rule file = true) ∨
        recorder.UsesRawio keys ∧ allows fsckRules (.file file .read) = true) ∧
      ∀ other, recorder.WriteOnly keys other → pathMatches other file = false) ∧
    (grants (readProfile text) (.file file .write) = true ↔
      (∃ rule, recorder.OpensWrite keys rule ∧ pathMatches rule file = true) ∧
      ∀ other, recorder.ReadOnly keys other → pathMatches other file = false) := by
  obtain ⟨tidy, rooted⟩ := consistent.kept keys kept
  obtain ⟨allTidy, written⟩ := tidy.readAtoms read
  have noDefault : ∀ permission, denies defaultDenyRules (.file file permission) = false := by
    intro permission
    by_contra denied
    rcases denies_defaultDenyRules (Bool.of_not_eq_false denied) with isVar | ⟨tail, rfl⟩
    · obtain ⟨rest, rfl⟩ := head?_eq_some_iff.mp isVar
      rw [written] at rooted
      cases rooted
    · rw [written, writeAtoms_append] at elsewhere
      have chars : writeAtoms ("/sys/firmware/".toList.map .char) = "/sys/firmware/".toList := by
        simp [writeAtoms, Atom.text]
      rw [chars, isPrefixOf_iff_prefix.mpr (prefix_append _ _)] at elsewhere
      cases elsewhere
  have noMount : allows fsckRules (.file file .write) = false := by
    simp [fsckRules]
  have reads : anyMatches ((recorder.abstract keys).allowEntries .read) file = true ↔
      ∃ rule, recorder.OpensRead keys rule ∧ pathMatches rule file = true := by
    refine anyMatches_recording consistent keys (fun path member => AppArmorAbstract.mem_entries (Or.inl member))
      fun path => ?_
    simp only [AppArmorAbstract.allowEntries, mem_append, mem_readOnly_recording,
      mem_readWrite_recording, mem_executed_recording, AppArmorRecorder.OpensRead, or_assoc]
  have writes : anyMatches ((recorder.abstract keys).allowEntries .write) file = true ↔
      ∃ rule, recorder.OpensWrite keys rule ∧ pathMatches rule file = true := by
    refine anyMatches_recording consistent keys (fun path member => AppArmorAbstract.mem_entries (Or.inl member))
      fun path => ?_
    simp only [AppArmorAbstract.allowEntries, mem_append, mem_writeOnly_recording,
      mem_readWrite_recording, AppArmorRecorder.OpensWrite]
  have writeOnly : anyMatches ((recorder.abstract keys).denyEntries .read) file = true ↔
      ∃ rule, recorder.WriteOnly keys rule ∧ pathMatches rule file = true :=
    anyMatches_recording consistent keys (fun path member => AppArmorAbstract.mem_entries (Or.inr member))
      fun path => mem_writeOnly_recording
  have readOnly : anyMatches ((recorder.abstract keys).denyEntries .write) file = true ↔
      ∃ rule, recorder.ReadOnly keys rule ∧ pathMatches rule file = true :=
    anyMatches_recording consistent keys (fun path member => AppArmorAbstract.mem_entries (Or.inr member))
      fun path => mem_readOnly_recording
  constructor
  · rw [grants_file generated, AppArmorAbstract.grantsFile, noDefault, Bool.or_false, Bool.and_eq_true,
      Bool.or_eq_true, Bool.and_eq_true, allowMount_recording, reads, Bool.not_eq_true',
      ← Bool.not_eq_true, writeOnly]
    simp
  · rw [grants_file generated, AppArmorAbstract.grantsFile, noDefault, noMount, Bool.and_false, Bool.or_false,
      Bool.or_false, Bool.and_eq_true, writes, Bool.not_eq_true', ← Bool.not_eq_true, readOnly]
    simp

end text

theorem classifyFileAccess_plain {programName path : Str} {access : FileAccess} (notSpawned : access.spawn = false)
    (notMapped : access.exec = false) (notLibrary : isKnownFile path knownLibrariesPrefixes = false)
    (notRead : isKnownFile path knownReadPrefixes = false)
    (notWritten : isKnownFile path knownWritePrefixes = false) :
    classifyFileAccess programName path access =
      ⟨false, false, access.read && path ≠ programName, access.write⟩ := by
  simp [classifyFileAccess, isKnownLibrary, notSpawned, notMapped, notLibrary, notRead, notWritten, FileRule.none]

section own

variable {recorder : AppArmorRecorder} {keys : List RecordingKey} {path : Str} {file : List Atom}

theorem mem_accesses {key : RecordingKey} {access : FileAccess} (listed : key ∈ keys)
    (recorded : (recorder.files key).lookup path = some access) : (path, access) ∈ recorder.accesses keys :=
  mem_flatMap.mpr ⟨key, listed, mem_map.mpr ⟨⟨path, access⟩, SortedMap.mem_entries.mpr recorded, rfl⟩⟩

theorem opensBoth_own (both : recorder.ReadWrite keys path) (plain : recorder.Shares keys path → Plain path)
    (tidy : Tidy path) (rooted : Rooted path) (read : readAtoms path = some file)
    (self : pathMatches path file = true) :
    ∃ rule, recorder.OpensBoth keys rule ∧ pathMatches rule file = true := by
  by_cases shares : recorder.Shares keys path
  · exact ⟨_, ⟨path, both, Or.inl ⟨shares, rfl⟩⟩, (plain shares).pathMatches tidy rooted read⟩
  · exact ⟨path, ⟨path, both, Or.inr ⟨shares, rfl⟩⟩, self⟩

theorem opensRead_own (kept : recorder.Kept keys path) (reads : (recorder.rule keys path).read = true)
    (plain : recorder.Shares keys path → Plain path) (tidy : Tidy path) (rooted : Rooted path)
    (read : readAtoms path = some file) (self : pathMatches path file = true) :
    ∃ rule, recorder.OpensRead keys rule ∧ pathMatches rule file = true := by
  cases writes : (recorder.rule keys path).write with
  | true =>
    have both : recorder.ReadWrite keys path := Or.inr ⟨kept, by simp [writes, FileRule.readable, reads]⟩
    obtain ⟨rule, opens, matched⟩ := opensBoth_own both plain tidy rooted read self
    exact ⟨rule, Or.inr (Or.inr opens), matched⟩
  | false =>
    cases executes : ((recorder.rule keys path).execute || (recorder.rule keys path).library) with
    | true => exact ⟨path, Or.inl ((executes_iff keys).mpr ⟨kept, executes⟩), self⟩
    | false =>
      obtain ⟨notExecuted, notMapped⟩ := Bool.or_eq_false_iff.mp executes
      exact ⟨path, Or.inr (Or.inl ⟨kept, by simp [writes, reads, notExecuted, notMapped]⟩), self⟩

theorem opensWrite_own (kept : recorder.Kept keys path) (writes : (recorder.rule keys path).write = true)
    (plain : recorder.Shares keys path → Plain path) (tidy : Tidy path) (rooted : Rooted path)
    (read : readAtoms path = some file) (self : pathMatches path file = true) :
    ∃ rule, recorder.OpensWrite keys rule ∧ pathMatches rule file = true := by
  cases reads : (recorder.rule keys path).readable with
  | true =>
    obtain ⟨rule, opens, matched⟩ :=
      opensBoth_own (Or.inr ⟨kept, by simp [writes, reads]⟩) plain tidy rooted read self
    exact ⟨rule, Or.inr opens, matched⟩
  | false => exact ⟨path, Or.inl ⟨kept, by simp [writes, reads]⟩, self⟩

end own

/-- The accesses to a file are granted if no file with the other access only has a path that matches it too, and,
for the program itself and for odd paths in a directory that is opened as a whole, if some rule matches it. -/
theorem recorded_access_granted_iff {programName name text path : Str} {events : List Event}
    {keys : List RecordingKey} {key : RecordingKey} {access : FileAccess} {file : List Atom}
    (small : pathBytes ((record programName events).accesses keys) ≤ maxProfilePathBytes)
    (generated : generateProfile name .enforce
      (some (abstractFromRecording (getAppArmorProcessed (record programName events) keys))) = .ok text)
    (listed : key ∈ keys) (recorded : ((record programName events).files key).lookup path = some access)
    (notSpawned : access.spawn = false) (notMapped : access.exec = false)
    (notLibrary : isKnownFile path knownLibrariesPrefixes = false)
    (notRead : isKnownFile path knownReadPrefixes = false)
    (notWritten : isKnownFile path knownWritePrefixes = false)
    (elsewhere : "/sys/firmware/".toList.isPrefixOf path = false) (present : isDeleted path = false)
    (read : readAtoms path = some file) :
    ((access.read = true → grants (readProfile text) (.file file .read) = true) ∧
      (access.write = true → grants (readProfile text) (.file file .write) = true)) ↔
    (access.read = true → ∀ other, (record programName events).WriteOnly keys other →
      pathMatches other file = false) ∧
    (access.write = true → ∀ other, (record programName events).ReadOnly keys other →
      pathMatches other file = false) ∧
    (path = (record programName events).programName ∨
        (record programName events).Shares keys path ∧ ¬Plain path →
      (access.read = true →
        (∃ rule, (record programName events).OpensRead keys rule ∧ pathMatches rule file = true) ∨
          (record programName events).UsesRawio keys ∧ allows fsckRules (.file file .read) = true) ∧
      (access.write = true →
        ∃ rule, (record programName events).OpensWrite keys rule ∧ pathMatches rule file = true)) := by
  have consistent : Consistent (fun _ => True) (record programName events) :=
    consistent_record programName fun event _ => by cases event <;> exact trivial
  generalize record programName events = recorder at *
  have member := mem_accesses listed recorded
  have kept : recorder.Kept keys path :=
    mem_keptNames_of_small small (mem_presentNames.mpr ⟨⟨access, member⟩, present⟩)
  obtain ⟨tidy, rooted⟩ := consistent.kept keys kept
  have self : pathMatches path file = true := by
    obtain ⟨allTidy, written⟩ := tidy.readAtoms read
    rw [written]
    exact pathMatches_self (Tidy.strict_atoms allTidy)
  obtain ⟨readGranted, writeGranted⟩ := grants_recording consistent generated kept elsewhere read
  rw [readGranted, writeGranted]
  have own := @classifyFileAccess_plain recorder.programName path access notSpawned notMapped notLibrary
    notRead notWritten
  constructor
  · rintro ⟨reads, writes⟩
    exact ⟨fun isRead => (reads isRead).2, fun isWritten => (writes isWritten).2,
      fun _ => ⟨fun isRead => (reads isRead).1, fun isWritten => (writes isWritten).1⟩⟩
  · rintro ⟨noWriteOnly, noReadOnly, odd⟩
    by_cases isOdd : path = recorder.programName ∨ recorder.Shares keys path ∧ ¬Plain path
    · exact ⟨fun isRead => ⟨(odd isOdd).1 isRead, noWriteOnly isRead⟩,
        fun isWritten => ⟨(odd isOdd).2 isWritten, noReadOnly isWritten⟩⟩
    · obtain ⟨notProgram, shared⟩ := not_or.mp isOdd
      have plain : recorder.Shares keys path → Plain path := fun shares => by_contra fun odd => shared ⟨shares, odd⟩
      constructor
      · intro isRead
        have reads : (recorder.rule keys path).read = true :=
          (mergedRule_part (fun _ _ => rfl) rfl).mpr ⟨access, member, by simp [own, isRead, notProgram]⟩
        exact ⟨Or.inl (opensRead_own kept reads plain tidy rooted read self), noWriteOnly isRead⟩
      · intro isWritten
        have writes : (recorder.rule keys path).write = true :=
          (mergedRule_part (fun _ _ => rfl) rfl).mpr ⟨access, member, by simp [own, isWritten]⟩
        exact ⟨opensWrite_own kept writes plain tidy rooted read self, noReadOnly isWritten⟩

def accessing (path : String) (flags : BitVec 64) : Event := .file 1 (path.toList ++ [Char.ofNat 0]) flags

/-- A log is written, in the directory of a file that is read and written. -/
abbrev logRecorder : AppArmorRecorder := record [] [accessing "/data/db" 3, accessing "/data/log" 2]

/-- A file that is only written is granted for writing, next to one that is read and written. -/
theorem written_log_granted : ∃ text,
    generateProfile "log".toList .enforce (some (abstractFromRecording (getAppArmorProcessed logRecorder [1]))) =
      .ok text ∧
    logRecorder.Shares [1] "/data/log".toList ∧
    grants (readProfile text) (.file ("/data/log".toList.map .char) .write) = true := by
  have accesses : logRecorder.accesses [1] =
      [("/data/db".toList, ⟨true, true, false, false⟩), ("/data/log".toList, ⟨false, true, false, false⟩)] := rfl
  have small : pathBytes (logRecorder.accesses [1]) ≤ maxProfilePathBytes := by
    rw [accesses]
    decide
  have present : "/data/db".toList ∈ presentNames (logRecorder.accesses [1]) :=
    mem_presentNames.mpr ⟨⟨_, accesses ▸ mem_cons_self⟩, rfl⟩
  have generated := @generateProfile_valid "log".toList .enforce
    (abstractFromRecording (getAppArmorProcessed logRecorder [1])) rfl
  have recorded : (logRecorder.files 1).lookup "/data/log".toList = some ⟨false, true, false, false⟩ := rfl
  have shares : logRecorder.Shares [1] "/data/log".toList :=
    ⟨"/data/db".toList, by decide, Or.inr ⟨mem_keptNames_of_small small present, rfl⟩, by decide⟩
  have written : ∀ {other}, logRecorder.Kept [1] other → (logRecorder.rule [1] other).write = true := by
    intro other kept
    obtain ⟨⟨access, member⟩, _⟩ := mem_presentNames.mp (keptNames_subset kept)
    rw [accesses] at member
    rcases mem_pair.mp member with same | same <;> rw [(Prod.mk.inj same).1] <;> rfl
  refine ⟨_, generated, shares,
    ((recorded_access_granted_iff small generated (mem_singleton_self 1) recorded rfl rfl
    rfl rfl rfl rfl rfl rfl).mpr ⟨by simp, fun _ other readOnly => ?_, ?_⟩).2 rfl⟩
  · obtain ⟨kept, reads⟩ := readOnly
    rw [written kept] at reads
    cases reads
  · rintro (isProgram | ⟨_, odd⟩)
    · exact absurd isProgram (by decide)
    · exact absurd (by decide) odd

/-- A directory with a long number in its name is read, another file next to it is written: the write is denied. -/
theorem numbered_read_denies_write : ∃ text, generateProfile "log".toList .enforce
      (some (abstractFromRecording (getAppArmorProcessed
        (record [] [accessing "/data/123456" 1, accessing "/data/log" 2]) [1]))) = .ok text ∧
    ((record [] [accessing "/data/123456" 1, accessing "/data/log" 2]).files 1).lookup "/data/log".toList =
      some ⟨false, true, false, false⟩ ∧
    grants (readProfile text) (.file ("/data/log".toList.map .char) .write) = false := by
  have generated := @generateProfile_valid "log".toList .enforce (abstractFromRecording (getAppArmorProcessed
    (record [] [accessing "/data/123456" 1, accessing "/data/log" 2]) [1])) rfl
  refine ⟨_, generated, rfl, ?_⟩
  rw [grants_file generated]
  rfl

end Recorder

end SecurityProfiles
