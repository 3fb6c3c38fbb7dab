import SecurityProfiles.Recorder.Normalize
import SecurityProfiles.Library.SortedMap

namespace SecurityProfiles.Recorder

/-- The cgroup or mount namespace of a workload. -/
abbrev RecordingKey := Nat

def maxTrackedPaths : Nat := 10000
def maxTrackedKeys : Nat := 1000
def maxNormalizedPaths : Nat := 4096

structure FileAccess where
  read : Bool
  write : Bool
  exec : Bool
  spawn : Bool
deriving DecidableEq

def FileAccess.none : FileAccess := ⟨false, false, false, false⟩

/-- The flags of a file event are added to those recorded before. -/
def FileAccess.add (access : FileAccess) (flags : BitVec 64) : FileAccess where
  read := access.read || flags.getLsbD 0
  write := access.write || flags.getLsbD 1
  exec := access.exec || flags.getLsbD 2
  spawn := access.spawn || flags.getLsbD 3

structure SocketTypes where
  useRaw : Bool
  useTCP : Bool
  useUDP : Bool
deriving DecidableEq

def SocketTypes.none : SocketTypes := ⟨false, false, false⟩

def SocketTypes.or (first second : SocketTypes) : SocketTypes where
  useRaw := first.useRaw || second.useRaw
  useTCP := first.useTCP || second.useTCP
  useUDP := first.useUDP || second.useUDP

/-- A path as it goes into the profile. -/
structure NormalizedPath where
  path : Str
  excluded : Bool

structure AppArmorRecorder where
  programName : Str
  recordedSocketsUse : SortedMap RecordingKey SocketTypes
  recordedCapabilities : SortedMap RecordingKey (List Int)
  recordedFiles : SortedMap RecordingKey (SortedMap Str FileAccess)
  trackedKeys : List RecordingKey
  excluded : List RecordingKey
  normalizedPaths : SortedMap Str NormalizedPath

def newAppArmorRecorder (programName : Str) : AppArmorRecorder where
  programName := sanitizeFilePath programName
  recordedSocketsUse := .empty
  recordedCapabilities := .empty
  recordedFiles := .empty
  trackedKeys := []
  excluded := []
  normalizedPaths := .empty

/-- `trackKey` has the keys with the given one, unless it is new and there are too many. -/
def trackKey (recorder : AppArmorRecorder) (key : RecordingKey) : Option AppArmorRecorder :=
  if key ∈ recorder.trackedKeys then some recorder
  else if maxTrackedKeys ≤ recorder.trackedKeys.length then none
  else some { recorder with trackedKeys := key :: recorder.trackedKeys }

def normalize (fileName : Str) : NormalizedPath :=
  let path := replaceVarianceInFilePath (sanitizeFilePath fileName)
  { path, excluded := shouldExcludeFile path }

theorem normalize_excluded (fileName : Str) :
    (normalize fileName).excluded = shouldExcludeFile (normalize fileName).path := by
  simp only [normalize]

/-- `normalizePath` looks a path up among those normalized before. There are only so many of them. -/
def normalizePath (recorder : AppArmorRecorder) (fileName : Str) : NormalizedPath × AppArmorRecorder :=
  match recorder.normalizedPaths.lookup fileName with
  | some normalized => (normalized, recorder)
  | none =>
    let cache :=
      if maxNormalizedPaths ≤ recorder.normalizedPaths.entries.length then .empty else recorder.normalizedPaths
    (normalize fileName, { recorder with normalizedPaths := cache.insert fileName (normalize fileName) })

/-- `fileDataToString` drops the byte that ends a path. -/
def fileDataToString (data : Str) : Str := (Text.cutSuffix [Char.ofNat 0] data).getD data

def AppArmorRecorder.files (recorder : AppArmorRecorder) (key : RecordingKey) : SortedMap Str FileAccess :=
  (recorder.recordedFiles.lookup key).getD .empty

def recordFile (recorder : AppArmorRecorder) (key : RecordingKey) (fileName : Str) (flags : BitVec 64) :
    AppArmorRecorder :=
  let files := recorder.files key
  let recorded :=
    if maxTrackedPaths ≤ files.entries.length then files
    else files.insert fileName (((files.lookup fileName).getD .none).add flags)
  { recorder with recordedFiles := recorder.recordedFiles.insert key recorded }

def handleFileEvent (recorder : AppArmorRecorder) (key : RecordingKey) (data : Str) (flags : BitVec 64) :
    AppArmorRecorder :=
  let fileName := fileDataToString data
  if key ∈ recorder.excluded then recorder
  else if ['/'].isPrefixOf fileName = false then recorder
  else
    let (normalized, recorder) := normalizePath recorder fileName
    if normalized.excluded then recorder
    else
      match trackKey recorder key with
      | none => recorder
      | some recorder => recordFile recorder key normalized.path flags

def sockStream : BitVec 64 := 1
def sockDgram : BitVec 64 := 2
def sockRaw : BitVec 64 := 3
def sockTypeMask : BitVec 64 := 0xF
def afUnix : BitVec 64 := 1
def afInet : BitVec 64 := 2
def afInet6 : BitVec 64 := 10

/-- `socketUse` is the network rule that a socket needs, if any. -/
def socketUse (flags : BitVec 64) : Option SocketTypes :=
  let domain := flags >>> 32
  let socketType := flags &&& sockTypeMask
  if socketType = sockRaw ∧ domain ≠ afUnix then some { SocketTypes.none with useRaw := true }
  else if domain ≠ afInet ∧ domain ≠ afInet6 then none
  else if socketType = sockStream then some { SocketTypes.none with useTCP := true }
  else if socketType = sockDgram then some { SocketTypes.none with useUDP := true }
  else none

def handleSocketEvent (recorder : AppArmorRecorder) (key : RecordingKey) (flags : BitVec 64) : AppArmorRecorder :=
  if key ∈ recorder.excluded then recorder
  else
    match socketUse flags with
    | none => recorder
    | some use =>
      match trackKey recorder key with
      | none => recorder
      | some recorder =>
        let recorded := (recorder.recordedSocketsUse.lookup key).getD .none
        { recorder with recordedSocketsUse := recorder.recordedSocketsUse.insert key (recorded.or use) }

def handleCapabilityEvent (recorder : AppArmorRecorder) (key : RecordingKey) (flags : BitVec 64) :
    AppArmorRecorder :=
  if key ∈ recorder.excluded then recorder
  else
    match trackKey recorder key with
    | none => recorder
    | some recorder =>
      let recorded := (recorder.recordedCapabilities.lookup key).getD []
      if flags.toInt ∈ recorded then recorder
      else
        { recorder with
          recordedCapabilities := recorder.recordedCapabilities.insert key (recorded ++ [flags.toInt]) }

def clear (recorder : AppArmorRecorder) (key : RecordingKey) : AppArmorRecorder :=
  { recorder with
    recordedFiles := recorder.recordedFiles.erase key
    recordedCapabilities := recorder.recordedCapabilities.erase key
    recordedSocketsUse := recorder.recordedSocketsUse.erase key
    trackedKeys := recorder.trackedKeys.filter (· ≠ key) }

/-- `exclude` deletes all data of the key and has its later events ignored. -/
def exclude (recorder : AppArmorRecorder) (key : RecordingKey) : AppArmorRecorder :=
  clear { recorder with excluded := key :: recorder.excluded } key

/-- What the recorder is told: by the kernel about a workload, or to forget one. -/
inductive Event where
  | file (key : RecordingKey) (data : Str) (flags : BitVec 64)
  | socket (key : RecordingKey) (flags : BitVec 64)
  | capability (key : RecordingKey) (flags : BitVec 64)
  | clear (key : RecordingKey)
  | exclude (key : RecordingKey)

def handle (recorder : AppArmorRecorder) : Event → AppArmorRecorder
  | .file key data flags => handleFileEvent recorder key data flags
  | .socket key flags => handleSocketEvent recorder key flags
  | .capability key flags => handleCapabilityEvent recorder key flags
  | .clear key => clear recorder key
  | .exclude key => exclude recorder key

def record (programName : Str) (events : List Event) : AppArmorRecorder :=
  events.foldl handle (newAppArmorRecorder programName)

/-- What holds of the data of every recorder, with the capabilities that its events may name. -/
structure Consistent (capable : Int → Prop) (recorder : AppArmorRecorder) : Prop where
  cached : ∀ fileName normalized, recorder.normalizedPaths.lookup fileName = some normalized →
    normalized = normalize fileName
  files : ∀ key files, recorder.recordedFiles.lookup key = some files →
    ∀ fileName ∈ files.keys, Normalized fileName ∧ shouldExcludeFile fileName = false
  capabilities : ∀ key capabilities, recorder.recordedCapabilities.lookup key = some capabilities →
    ∀ capability ∈ capabilities, capable capability

/-- The capability of an event is one of the given ones. -/
def Event.Names (capable : Int → Prop) : Event → Prop
  | .capability _ flags => capable flags.toInt
  | _ => True

section steps

variable {capable : Int → Prop} {recorder tracked : AppArmorRecorder} {key : RecordingKey}

theorem consistent_new (programName : Str) : Consistent capable (newAppArmorRecorder programName) := by
  constructor <;> simp [newAppArmorRecorder]

theorem trackKey_cases (tracks : trackKey recorder key = some tracked) :
    ∃ keys, tracked = { recorder with trackedKeys := keys } := by
  unfold trackKey at tracks
  split at tracks
  · exact ⟨_, (Option.some.inj tracks).symm⟩
  split at tracks
  · cases tracks
  · exact ⟨_, (Option.some.inj tracks).symm⟩

section

variable (consistent : Consistent capable recorder)
include consistent

theorem Consistent.trackKey (tracks : trackKey recorder key = some tracked) :
    Consistent capable tracked := by
  obtain ⟨keys, rfl⟩ := trackKey_cases tracks
  exact ⟨consistent.cached, consistent.files, consistent.capabilities⟩

/-- The cache does not change what a path is normalized to. -/
theorem Consistent.normalizePath (fileName : Str) :
    (normalizePath recorder fileName).1 = normalize fileName ∧
      Consistent capable (normalizePath recorder fileName).2 := by
  unfold Recorder.normalizePath
  cases found : recorder.normalizedPaths.lookup fileName with
  | some normalized => exact ⟨consistent.cached fileName normalized found, consistent⟩
  | none =>
    refine ⟨rfl, ?_, consistent.files, consistent.capabilities⟩
    intro name normalized cached
    rw [SortedMap.lookup_insert] at cached
    split at cached
    · next same =>
        rw [same]
        exact (Option.some.inj cached).symm
    · split at cached
      · cases cached
      · exact consistent.cached name normalized cached

theorem Consistent.filesOf (key : RecordingKey) :
    ∀ fileName ∈ (recorder.files key).keys, Normalized fileName ∧ shouldExcludeFile fileName = false := by
  unfold AppArmorRecorder.files
  cases found : recorder.recordedFiles.lookup key with
  | some files => exact consistent.files key files found
  | none => simp [SortedMap.mem_keys]

theorem Consistent.recordFile {fileName : Str} (flags : BitVec 64) (normalized : Normalized fileName)
    (kept : shouldExcludeFile fileName = false) : Consistent capable (recordFile recorder key fileName flags) := by
  refine ⟨consistent.cached, ?_, consistent.capabilities⟩
  intro key' files found
  simp only [Recorder.recordFile, SortedMap.lookup_insert] at found
  split at found
  · obtain rfl := Option.some.inj found
    split
    · exact consistent.filesOf key
    · intro name member
      rcases SortedMap.mem_keys_insert.mp member with rfl | member
      · exact ⟨normalized, kept⟩
      · exact consistent.filesOf key name member
  · exact consistent.files key' files found

/-- The recorded paths are normalized, and none of them is excluded. -/
theorem Consistent.handleFileEvent (key : RecordingKey) (data : Str)
    (flags : BitVec 64) : Consistent capable (handleFileEvent recorder key data flags) := by
  unfold Recorder.handleFileEvent
  dsimp only
  split
  · exact consistent
  split
  · exact consistent
  next absolute =>
    have rooted : Rooted (fileDataToString data) := by
      obtain ⟨tail, same⟩ := List.isPrefixOf_iff_prefix.mp (Bool.of_not_eq_false absolute)
      rw [← same]
      rfl
    obtain ⟨same, next⟩ := consistent.normalizePath (fileDataToString data)
    split
    · exact next
    next included =>
      cases tracks : Recorder.trackKey (Recorder.normalizePath recorder (fileDataToString data)).2 key with
      | none => exact next
      | some tracked =>
        have path : (Recorder.normalizePath recorder (fileDataToString data)).1.path =
            replaceVarianceInFilePath (sanitizeFilePath (fileDataToString data)) := by
          simp only [same, normalize]
        apply (next.trackKey tracks).recordFile
        · rw [path]
          exact normalized_of_rooted rooted
        · rw [same] at included ⊢
          rw [← normalize_excluded]
          exact Bool.of_not_eq_true included

theorem Consistent.handleSocketEvent (key : RecordingKey) (flags : BitVec 64) :
    Consistent capable (handleSocketEvent recorder key flags) := by
  unfold Recorder.handleSocketEvent
  split
  · exact consistent
  split
  · exact consistent
  split
  · exact consistent
  · next tracked tracks =>
      have next := consistent.trackKey tracks
      exact ⟨next.cached, next.files, next.capabilities⟩

theorem Consistent.handleCapabilityEvent (key : RecordingKey) {flags : BitVec 64} (able : capable flags.toInt) :
    Consistent capable (handleCapabilityEvent recorder key flags) := by
  unfold Recorder.handleCapabilityEvent
  split
  · exact consistent
  split
  · exact consistent
  · next tracked tracks =>
      have next := consistent.trackKey tracks
      dsimp only
      split
      · exact next
      refine ⟨next.cached, next.files, ?_⟩
      intro key' capabilities found capability member
      rw [SortedMap.lookup_insert] at found
      split at found
      · obtain rfl := Option.some.inj found
        rcases List.mem_append.mp member with before | new
        · cases recorded : tracked.recordedCapabilities.lookup key with
          | none =>
            rw [recorded] at before
            cases before
          | some recordedBefore =>
            rw [recorded] at before
            exact next.capabilities key recordedBefore recorded capability before
        · rw [List.mem_singleton.mp new]
          exact able
      · exact next.capabilities key' capabilities found capability member

theorem Consistent.clear (key : RecordingKey) :
    Consistent capable (clear recorder key) :=
  ⟨consistent.cached, fun key' files found =>
    consistent.files key' files (SortedMap.lookup_erase_eq_some.mp found).2, fun key' capabilities found =>
      consistent.capabilities key' capabilities (SortedMap.lookup_erase_eq_some.mp found).2⟩

theorem Consistent.exclude (key : RecordingKey) :
    Consistent capable (exclude recorder key) := by
  have excluding : Consistent capable { recorder with excluded := key :: recorder.excluded } :=
    ⟨consistent.cached, consistent.files, consistent.capabilities⟩
  exact excluding.clear key

theorem Consistent.handle {event : Event} (names : event.Names capable) :
    Consistent capable (handle recorder event) := by
  cases event with
  | file key data flags => exact consistent.handleFileEvent key data flags
  | socket key flags => exact consistent.handleSocketEvent key flags
  | capability key flags => exact consistent.handleCapabilityEvent key names
  | clear key => exact consistent.clear key
  | exclude key => exact consistent.exclude key

end

end steps

theorem consistent_record {capable : Int → Prop} (programName : Str) {events : List Event}
    (names : ∀ event ∈ events, event.Names capable) : Consistent capable (record programName events) := by
  unfold record
  have start : Consistent capable (newAppArmorRecorder programName) := consistent_new programName
  revert start
  generalize newAppArmorRecorder programName = recorder
  induction events generalizing recorder with
  | nil => exact id
  | cons event events ih =>
    intro start
    obtain ⟨first, later⟩ := List.forall_mem_cons.mp names
    exact ih later _ (start.handle first)

end SecurityProfiles.Recorder
