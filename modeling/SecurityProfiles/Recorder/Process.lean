import SecurityProfiles.Recorder.Record
import SecurityProfiles.Library.FilePath

namespace SecurityProfiles.Recorder

open List

def maxProfilePathBytes : Nat := 6 * 1024 * 1024

def knownLibrariesPrefixes : List Str :=
  ["/usr/lib32/locale/", "/usr/lib64/locale/", "/usr/lib32/gconv/", "/usr/lib64/gconv/",
    "/usr/lib/x86_64-linux-gnu/", "/lib/x86_64-linux-gnu/", "/usr/lib/aarch64-linux-gnu/",
    "/lib/aarch64-linux-gnu/", "/lib64/", "/lib/tls/", "/usr/lib/tls/"].map String.toList

def knownReadPrefixes : List Str :=
  ["/dev/random", "/dev/urandom", "/etc/ld.so.cache", "/etc/ld.so.conf", "/etc/ld.so.conf.d/", "/etc/locale/",
    "/etc/locale.alias/", "/etc/localtime", "/usr/share/locale/", "/usr/lib/locale/", "/etc/locale.alias"].map
    String.toList

def knownWritePrefixes : List Str := ["/dev/log"].map String.toList

def isKnownFile (path : Str) (knownPrefixes : List Str) : Bool := knownPrefixes.any (·.isPrefixOf path)

/-- The access that a profile has to allow for a path. -/
structure FileRule where
  execute : Bool
  library : Bool
  read : Bool
  write : Bool
deriving DecidableEq

namespace FileRule

def none : FileRule := ⟨false, false, false, false⟩

def or (first second : FileRule) : FileRule where
  execute := first.execute || second.execute
  library := first.library || second.library
  read := first.read || second.read
  write := first.write || second.write

/-- Executing and mapping allow reading. -/
def readable (rule : FileRule) : Bool := rule.read || rule.execute || rule.library

@[simp] theorem none_or (rule : FileRule) : FileRule.none.or rule = rule := by
  simp [FileRule.or, FileRule.none]

end FileRule

def isKnownLibrary (programName fileName : Str) : Bool :=
  isKnownFile fileName knownLibrariesPrefixes || fileName = programName

/-- `classifyFileAccess` is the rule for the access of one workload. -/
def classifyFileAccess (programName fileName : Str) (access : FileAccess) : FileRule :=
  let knownLibrary := isKnownLibrary programName fileName
  let knownRead := isKnownFile fileName knownReadPrefixes || knownLibrary
  let knownWrite := isKnownFile fileName knownWritePrefixes
  if access.spawn then { FileRule.none with execute := true }
  else if access.exec then { FileRule.none with library := !knownLibrary }
  else { FileRule.none with read := access.read && !knownRead, write := access.write && !knownWrite }

/-- The path by which anonymous huge pages show up. -/
def anonHugepage : Str := "/anon_hugepage (deleted)".toList

/-- How far the recorded files are processed. -/
structure Processing where
  rules : SortedMap Str FileRule
  readWritePaths : List Str
  pathBytes : Nat

def Processing.start : Processing := ⟨.empty, [], 0⟩

def processFile (programName : Str) (state : Processing) (file : Str × FileAccess) : Processing :=
  let (fileName, access) := file
  if fileName = anonHugepage then { state with readWritePaths := state.readWritePaths ++ [['/']] }
  else if isDeleted fileName then state
  else
    let rule := classifyFileAccess programName fileName access
    match state.rules.lookup fileName with
    | some merged => { state with rules := state.rules.insert fileName (merged.or rule) }
    | none =>
      if maxProfilePathBytes < state.pathBytes + fileName.length then state
      else
        { state with
          rules := state.rules.insert fileName rule
          pathBytes := state.pathBytes + fileName.length }

/-- The files recorded for the keys, one key after the other. -/
def AppArmorRecorder.accesses (recorder : AppArmorRecorder) (keys : List RecordingKey) : List (Str × FileAccess) :=
  keys.flatMap fun key => (recorder.files key).entries.map fun entry => (entry.1, entry.2)

def countDirs (filePaths : List Str) : SortedMap Str Nat :=
  filePaths.foldl (fun dupDirs path =>
    dupDirs.insert (FilePath.dir path) ((dupDirs.lookup (FilePath.dir path)).getD 0 + 1)) .empty

def allowAnyFilesFrom (dupDirs : SortedMap Str Nat) : List Str → List Str
  | [] => []
  | path :: rest =>
    let dir := FilePath.dir path
    let count := (dupDirs.lookup dir).getD 0
    if 1 < count then FilePath.join [dir, ['*']] :: allowAnyFilesFrom (dupDirs.insert dir 0) rest
    else if count = 1 then path :: allowAnyFilesFrom dupDirs rest
    else allowAnyFilesFrom dupDirs rest

/-- `allowAnyFiles` allows all files of a directory that has several of the paths. -/
def allowAnyFiles (filePaths : List Str) : List Str := allowAnyFilesFrom (countDirs filePaths) filePaths

structure FileProcessed where
  allowedExecutables : List Str
  allowedLibraries : List Str
  readOnlyPaths : List Str
  writeOnlyPaths : List Str
  readWritePaths : List Str
deriving DecidableEq

def pathsWith (rules : SortedMap Str FileRule) (wanted : FileRule → Bool) : List Str :=
  (rules.entries.filter fun entry => wanted entry.2).map (·.1)

def readWriteOf (state : Processing) : List Str :=
  Text.compact (Text.sort (state.readWritePaths ++ pathsWith state.rules fun rule => rule.write && rule.readable))

/-- `processExecFsEvents` classifies the accesses of each key on its own and merges the rules. -/
def processExecFsEvents (recorder : AppArmorRecorder) (keys : List RecordingKey) : FileProcessed :=
  let state := (recorder.accesses keys).foldl (processFile recorder.programName) .start
  { allowedExecutables := Text.sort (pathsWith state.rules (·.execute))
    allowedLibraries := Text.sort (pathsWith state.rules fun rule => !rule.execute && rule.library)
    readOnlyPaths := Text.sort (pathsWith state.rules fun rule =>
      !rule.write && rule.read && !rule.execute && !rule.library)
    writeOnlyPaths := Text.sort (pathsWith state.rules fun rule => rule.write && !rule.readable)
    readWritePaths := Text.sort (allowAnyFiles (readWriteOf state)) }

def capabilities : List Str :=
  ["chown", "dac_override", "dac_read_search", "fowner", "fsetid", "kill", "setgid", "setuid", "setpcap",
    "linux_immutable", "net_bind_service", "net_broadcast", "net_admin", "net_raw", "ipc_lock", "ipc_owner",
    "sys_module", "sys_rawio", "sys_chroot", "sys_ptrace", "sys_pacct", "sys_admin", "sys_boot", "sys_nice",
    "sys_resource", "sys_time", "sys_tty_config", "mknod", "lease", "audit_write", "audit_control", "setfcap",
    "mac_override", "mac_admin", "syslog", "wake_alarm", "block_suspend", "audit_read", "perfmon", "bpf",
    "checkpoint_restore"].map String.toList

def capabilityToString (capability : Int) : Str :=
  match capability with
  | .ofNat number => (capabilities[number]?).getD ("CAPABILITY_".toList ++ (toString number).toList)
  | .negSucc _ => "CAPABILITY_".toList ++ (toString capability).toList

def processCapabilities (recorder : AppArmorRecorder) (keys : List RecordingKey) : List Str :=
  Text.compact (Text.sort (keys.flatMap fun key =>
    ((recorder.recordedCapabilities.lookup key).getD []).map capabilityToString))

structure Processed where
  fileProcessed : FileProcessed
  socket : SocketTypes
  capabilities : List Str
deriving DecidableEq

/-- `getAppArmorProcessed` has the rules recorded for the keys, merged into one profile. -/
def getAppArmorProcessed (recorder : AppArmorRecorder) (keys : List RecordingKey) : Processed where
  fileProcessed := processExecFsEvents recorder keys
  socket := keys.foldl (fun socket key => socket.or ((recorder.recordedSocketsUse.lookup key).getD .none)) .none
  capabilities := processCapabilities recorder keys

/-- A section of a profile, if any of its lists has an element. -/
def unlessEmpty {α : Type} (lists : List (List Str)) (rules : α) : Option α :=
  if lists.all (· = []) then none else some rules

/-- `abstractFromRecording` leaves out the sections without any recorded access. -/
def abstractFromRecording (recorded : Processed) : AppArmorAbstract where
  executable :=
    unlessEmpty [recorded.fileProcessed.allowedExecutables, recorded.fileProcessed.allowedLibraries]
      { allowedExecutables := Text.sort recorded.fileProcessed.allowedExecutables
        allowedLibraries := Text.sort recorded.fileProcessed.allowedLibraries }
  filesystem :=
    unlessEmpty [recorded.fileProcessed.readOnlyPaths, recorded.fileProcessed.writeOnlyPaths,
        recorded.fileProcessed.readWritePaths]
      { readOnlyPaths := Text.sort recorded.fileProcessed.readOnlyPaths
        writeOnlyPaths := Text.sort recorded.fileProcessed.writeOnlyPaths
        readWritePaths := Text.sort recorded.fileProcessed.readWritePaths }
  network :=
    if recorded.socket.useRaw || recorded.socket.useTCP || recorded.socket.useUDP then
      some
        { allowRaw := if recorded.socket.useRaw then some true else none
          protocols :=
            if recorded.socket.useTCP || recorded.socket.useUDP then
              some
                { allowTCP := if recorded.socket.useTCP then some true else none
                  allowUDP := if recorded.socket.useUDP then some true else none }
            else none }
    else none
  capability := unlessEmpty [recorded.capabilities] { allowedCapabilities := recorded.capabilities }
  ptrace := none

/-- The profile that a recording gives. -/
abbrev AppArmorRecorder.abstract (recorder : AppArmorRecorder) (keys : List RecordingKey) : AppArmorAbstract :=
  abstractFromRecording (getAppArmorProcessed recorder keys)

section lists

variable (recorded : Processed) {path : Str}

theorem mem_executables_abstract :
    path ∈ (abstractFromRecording recorded).executables ↔ path ∈ recorded.fileProcessed.allowedExecutables := by
  by_cases empty : recorded.fileProcessed.allowedExecutables = [] <;>
    by_cases others : recorded.fileProcessed.allowedLibraries = [] <;>
      simp [AppArmorAbstract.executables, abstractFromRecording, unlessEmpty, empty, others]

theorem mem_libraries_abstract :
    path ∈ (abstractFromRecording recorded).libraries ↔ path ∈ recorded.fileProcessed.allowedLibraries := by
  by_cases empty : recorded.fileProcessed.allowedLibraries = [] <;>
    by_cases others : recorded.fileProcessed.allowedExecutables = [] <;>
      simp [AppArmorAbstract.libraries, abstractFromRecording, unlessEmpty, empty, others]

theorem filesystem_abstract : (abstractFromRecording recorded).filesystem = none ∧
      recorded.fileProcessed.readOnlyPaths = [] ∧ recorded.fileProcessed.writeOnlyPaths = [] ∧
      recorded.fileProcessed.readWritePaths = [] ∨
    (abstractFromRecording recorded).filesystem = some
      { readOnlyPaths := Text.sort recorded.fileProcessed.readOnlyPaths
        writeOnlyPaths := Text.sort recorded.fileProcessed.writeOnlyPaths
        readWritePaths := Text.sort recorded.fileProcessed.readWritePaths } := by
  unfold abstractFromRecording unlessEmpty
  dsimp only
  split
  · next empty => exact Or.inl ⟨rfl, by simpa using empty⟩
  · exact Or.inr rfl

theorem mem_readOnly_abstract :
    path ∈ (abstractFromRecording recorded).readOnly ↔ path ∈ recorded.fileProcessed.readOnlyPaths := by
  rcases filesystem_abstract recorded with ⟨none, empty, _⟩ | rules
  · simp [AppArmorAbstract.readOnly, none, empty]
  · simp [AppArmorAbstract.readOnly, rules]

theorem mem_writeOnly_abstract :
    path ∈ (abstractFromRecording recorded).writeOnly ↔ path ∈ recorded.fileProcessed.writeOnlyPaths := by
  rcases filesystem_abstract recorded with ⟨none, _, empty, _⟩ | rules
  · simp [AppArmorAbstract.writeOnly, none, empty]
  · simp [AppArmorAbstract.writeOnly, rules]

theorem mem_readWrite_abstract :
    path ∈ (abstractFromRecording recorded).readWrite ↔ path ∈ recorded.fileProcessed.readWritePaths := by
  rcases filesystem_abstract recorded with ⟨none, _, _, empty⟩ | rules
  · simp [AppArmorAbstract.readWrite, none, empty]
  · simp [AppArmorAbstract.readWrite, rules]

theorem capabilities_abstract : (abstractFromRecording recorded).capabilities = recorded.capabilities := by
  by_cases empty : recorded.capabilities = [] <;>
    simp [AppArmorAbstract.capabilities, abstractFromRecording, unlessEmpty, empty]

end lists

theorem mem_pathsWith {rules : SortedMap Str FileRule} {wanted : FileRule → Bool} {path : Str} :
    path ∈ pathsWith rules wanted ↔ ∃ rule, rules.lookup path = some rule ∧ wanted rule = true := by
  simp only [pathsWith, mem_map, mem_filter, Sigma.exists, SortedMap.mem_entries]
  exact ⟨fun ⟨_, rule, found, same⟩ => ⟨rule, same ▸ found⟩, fun ⟨rule, found⟩ => ⟨path, rule, found, rfl⟩⟩

section widened

/-- The path by which the profile allows reading and writing one of the given paths. -/
def widened (paths : List Str) (path : Str) : Str :=
  if 1 < (paths.map FilePath.dir).count (FilePath.dir path) then FilePath.join [FilePath.dir path, ['*']] else path

theorem lookup_countDirs (paths : List Str) (dir : Str) :
    ((countDirs paths).lookup dir).getD 0 = (paths.map FilePath.dir).count dir := by
  have counted : ∀ dupDirs : SortedMap Str Nat, ((paths.foldl (fun dupDirs path =>
      dupDirs.insert (FilePath.dir path) ((dupDirs.lookup (FilePath.dir path)).getD 0 + 1)) dupDirs).lookup
        dir).getD 0 = (dupDirs.lookup dir).getD 0 + (paths.map FilePath.dir).count dir := by
    induction paths with
    | nil => simp
    | cons path rest ih =>
      intro dupDirs
      rw [foldl_cons, ih, SortedMap.lookup_insert, map_cons, count_cons]
      by_cases same : dir = FilePath.dir path
      · simp [same]
        omega
      · simp [same, Ne.symm same]
  simpa [countDirs] using counted .empty

/-- What is left to do by `allowAnyFiles`: directories are allowed at the first of their paths, and then no more. -/
theorem mem_allowAnyFilesFrom {allowed : Str} (dupDirs : SortedMap Str Nat) (paths : List Str) :
    allowed ∈ allowAnyFilesFrom dupDirs paths ↔ ∃ path ∈ paths,
      (1 < (dupDirs.lookup (FilePath.dir path)).getD 0 ∧ allowed = FilePath.join [FilePath.dir path, ['*']]) ∨
        ((dupDirs.lookup (FilePath.dir path)).getD 0 = 1 ∧ allowed = path) := by
  fun_induction allowAnyFilesFrom dupDirs paths with
  | case1 => simp
  | case2 dupDirs path rest dir count several ih =>
    rw [mem_cons, ih]
    constructor
    · rintro (rfl | ⟨other, member, found⟩)
      · exact ⟨path, mem_cons_self, Or.inl ⟨several, rfl⟩⟩
      · refine ⟨other, mem_cons_of_mem _ member, ?_⟩
        rw [SortedMap.lookup_insert] at found
        split at found
        · simp at found
        · exact found
    · rintro ⟨other, member, found⟩
      by_cases same : FilePath.dir other = dir
      · rw [same] at found
        left
        rcases found with ⟨_, done⟩ | ⟨one, _⟩
        · exact done
        · exact absurd one (by omega)
      · rcases mem_cons.mp member with rfl | member
        · exact absurd rfl same
        · refine Or.inr ⟨other, member, ?_⟩
          rwa [SortedMap.lookup_insert_ne _ _ same]
  | case3 dupDirs path rest dir count _ one ih =>
    rw [mem_cons, ih]
    constructor
    · rintro (same | ⟨other, member, found⟩)
      · exact ⟨path, mem_cons_self, Or.inr ⟨one, same⟩⟩
      · exact ⟨other, mem_cons_of_mem _ member, found⟩
    · rintro ⟨other, member, found⟩
      rcases mem_cons.mp member with rfl | member
      · rcases found with ⟨several, _⟩ | ⟨_, done⟩
        · exact absurd several (by omega)
        · exact Or.inl done
      · exact Or.inr ⟨other, member, found⟩
  | case4 dupDirs path rest dir count notSeveral notOne ih =>
    rw [ih]
    constructor
    · rintro ⟨other, member, found⟩
      exact ⟨other, mem_cons_of_mem _ member, found⟩
    · rintro ⟨other, member, found⟩
      rcases mem_cons.mp member with rfl | member
      · rcases found with ⟨several, _⟩ | ⟨one, _⟩
        · exact absurd several notSeveral
        · exact absurd one notOne
      · exact ⟨other, member, found⟩

/-- Each path is in the list in its widened form. -/
theorem mem_allowAnyFiles {paths : List Str} {allowed : Str} :
    allowed ∈ allowAnyFiles paths ↔ ∃ path ∈ paths, allowed = widened paths path := by
  unfold allowAnyFiles
  rw [mem_allowAnyFilesFrom]
  apply exists_congr
  intro path
  refine and_congr_right fun member => ?_
  rw [lookup_countDirs, widened]
  have positive : 0 < (paths.map FilePath.dir).count (FilePath.dir path) :=
    count_pos_iff.mpr (mem_map_of_mem member)
  split
  · next several =>
      constructor
      · rintro (⟨_, same⟩ | ⟨one, _⟩)
        · exact same
        · omega
      · exact fun same => Or.inl ⟨several, same⟩
  · next single =>
      constructor
      · rintro (⟨several, _⟩ | ⟨_, same⟩)
        · exact absurd several single
        · exact same
      · exact fun same => Or.inr ⟨by omega, same⟩

end widened

end SecurityProfiles.Recorder
