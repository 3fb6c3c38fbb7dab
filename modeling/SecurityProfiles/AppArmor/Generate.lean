import SecurityProfiles.AppArmor.Pattern
import SecurityProfiles.Library.Fallible

namespace SecurityProfiles

structure PtraceRule where
  access : List Str
  peer : Str
deriving DecidableEq

structure Executable where
  allowedExecutables : Option (List Str)
  allowedLibraries : Option (List Str)
deriving DecidableEq

structure FileSystem where
  readOnlyPaths : Option (List Str)
  writeOnlyPaths : Option (List Str)
  readWritePaths : Option (List Str)
deriving DecidableEq

structure Network where
  allowRaw : Bool
  allowTCP : Bool
  allowUDP : Bool
deriving DecidableEq

structure Capability where
  allowedCapabilities : List Str
deriving DecidableEq

/-- What is written into the template. -/
structure ApparmorData where
  name : Str
  executable : Option Executable
  filesystem : Option FileSystem
  capability : Option Capability
  network : Option Network
  ptrace : List PtraceRule
deriving DecidableEq

def isRegexSpace (c : Char) : Bool := c ∈ ['\t', '\n', Char.ofNat 12, '\r', ' ']

/-- What may follow a ptrace rule in a list of paths: nothing, or a comment on the same line. -/
def isRuleEnd (text : Str) : Bool :=
  text = [] ||
    match text.dropWhile isRegexSpace with
    | '#' :: comment => '\n' ∉ comment
    | _ => false

/-- `ptraceRule` is the access of a ptrace rule that was put into a list of paths. -/
def ptraceRule (entry : Str) : Option Str := do
  let afterName ← Text.cutPrefix "ptrace".toList entry
  let inParens ← Text.cutPrefix "(".toList (afterName.dropWhile isRegexSpace)
  let afterParens ← Text.cutPrefix "),".toList (inParens.dropWhile Char.isAlpha)
  let access := inParens.takeWhile Char.isAlpha
  if access ≠ [] && isRuleEnd afterParens then some (Text.toLower access) else none

/-- `newPtraceRules` has the rule of the ptrace field before those that were put into the paths. A peer without
any access is kept for the validation to reject it. -/
def newPtraceRules (rules : Option AppArmorPtraceRules) (legacyAccess : List Str) : List PtraceRule :=
  (rules.filter fun rules => rules.allowedAccess ≠ [] || rules.peer ≠ []).toList.map (fun rules =>
      { access := Text.compact (Text.sort rules.allowedAccess), peer := rules.peer }) ++
    (Text.compact (Text.sort legacyAccess)).map fun access => { access := [access], peer := [] }

/-- The paths of a list, nil for nil, without the ptrace rules in it. -/
def splitPaths (entries : List Str) : Option (List Str) :=
  if entries = [] then none else some (entries.filter fun entry => (ptraceRule entry).isNone)

/-- `splitPtraceRules` takes the ptrace rules out of a list of paths. -/
def splitPtraceRules (entries : List Str) : Option (List Str) × List Str :=
  (splitPaths entries, entries.filterMap ptraceRule)

def normalizeCapability (capability : Str) : Str := Text.toLower (Text.trimSpace capability)

def normalizeCapabilities (capabilities : List Str) : List Str := capabilities.map normalizeCapability

def newApparmorData (name : Str) (abstract : AppArmorAbstract) : ApparmorData where
  name := name
  executable := abstract.executable.map fun rules =>
    { allowedExecutables := (splitPtraceRules rules.allowedExecutables).1
      allowedLibraries := (splitPtraceRules rules.allowedLibraries).1 }
  filesystem := abstract.filesystem.map fun rules =>
    { readOnlyPaths := (splitPtraceRules rules.readOnlyPaths).1
      writeOnlyPaths := (splitPtraceRules rules.writeOnlyPaths).1
      readWritePaths := (splitPtraceRules rules.readWritePaths).1 }
  capability := abstract.capability.map fun rules =>
    { allowedCapabilities := normalizeCapabilities rules.allowedCapabilities }
  network := abstract.network.map fun rules =>
    { allowRaw := rules.allowRaw.getD false
      allowTCP := (rules.protocols.bind (·.allowTCP)).getD false
      allowUDP := (rules.protocols.bind (·.allowUDP)).getD false }
  ptrace := newPtraceRules abstract.ptrace
    ((splitPtraceRules abstract.executables).2 ++ (splitPtraceRules abstract.libraries).2 ++
      ((splitPtraceRules abstract.readOnly).2 ++ (splitPtraceRules abstract.writeOnly).2 ++
        (splitPtraceRules abstract.readWrite).2))

inductive ValidateError where
  | invalidProfileName (name : Str)
  | unsafePath (path : Str)
  | invalidCapability (capability : Str)
  | ptraceWithoutAccess
  | invalidPtraceAccess (access : Str)
  | invalidPtracePeer (peer : Str)
  | unsafeExecutable (path : Str)
  | directoryTraversal (path : Str)
deriving DecidableEq

def isProfileNameChar (c : Char) : Bool := c.isAlphanum || c ∈ ['_', '.', '/', '-']

def profileNameChars (name : Str) : Bool := name ≠ [] && name.all isProfileNameChar

def validPath (path : Str) : Except ValidateError Unit :=
  Fallible.require (strictPathRegex path = true) (.unsafePath path)

def validCapabilities : List Str :=
  ["chown", "dac_override", "dac_read_search", "fowner", "fsetid", "kill", "setgid", "setuid", "setpcap",
    "linux_immutable", "net_bind_service", "net_broadcast", "net_admin", "net_raw", "ipc_lock", "ipc_owner",
    "sys_module", "sys_rawio", "sys_chroot", "sys_ptrace", "sys_pacct", "sys_admin", "sys_boot", "sys_nice",
    "sys_resource", "sys_time", "sys_tty_config", "mknod", "lease", "audit_write", "audit_control", "setfcap",
    "mac_override", "mac_admin", "syslog", "wake_alarm", "block_suspend", "audit_read", "perfmon", "bpf",
    "checkpoint_restore"].map String.toList

def validateCapability (capability : Str) : Except ValidateError Unit :=
  Fallible.require (normalizeCapability capability ∈ validCapabilities) (.invalidCapability capability)

def ptraceAccess : List Str := ["r", "w", "rw", "read", "readby", "trace", "tracedby"].map String.toList

/-- A piece of the peer of a ptrace rule: a plain character, a wildcard or the name of the profile. -/
def Atom.isPeer : Atom → Bool
  | .char c => c.isAlphanum || c ∈ ['_', '.', '/', '*', '?', '-']
  | .var name => name = "profile_name".toList

def ptracePeerRegex (peer : Str) : Bool := peer ≠ [] && (readAtoms peer).any (·.all Atom.isPeer)

def validatePtraceRule (rule : PtraceRule) : Except ValidateError Unit := do
  Fallible.require (rule.access ≠ []) .ptraceWithoutAccess
  rule.access.forM fun access => Fallible.require (access ∈ ptraceAccess) (.invalidPtraceAccess access)
  Fallible.require (rule.peer = [] ∨ ptracePeerRegex rule.peer = true) (.invalidPtracePeer rule.peer)

/-- The path climbs up, as the validation sees it. -/
def traverses (path : Str) : Bool := Text.contains "/../".toList path || "/..".toList.isPrefixOf path

def validateExecutableOrLibrary (path : Str) : Except ValidateError Unit := do
  Fallible.require (strictPathRegex path = true) (.unsafeExecutable path)
  Fallible.require (traverses path = false) (.directoryTraversal path)

namespace ApparmorData

variable (data : ApparmorData)

def readOnly : List Str := (data.filesystem.bind (·.readOnlyPaths)).getD []
def writeOnly : List Str := (data.filesystem.bind (·.writeOnlyPaths)).getD []
def readWrite : List Str := (data.filesystem.bind (·.readWritePaths)).getD []
def executables : List Str := (data.executable.bind (·.allowedExecutables)).getD []
def libraries : List Str := (data.executable.bind (·.allowedLibraries)).getD []
def capabilities : List Str := (data.capability.map (·.allowedCapabilities)).getD []

def validate : Except ValidateError Unit := do
  Fallible.require (data.name = [] ∨ profileNameChars data.name = true) (.invalidProfileName data.name)
  (data.readOnly ++ data.writeOnly ++ data.readWrite).forM validPath
  data.capabilities.forM validateCapability
  data.ptrace.forM validatePtraceRule
  (data.executables ++ data.libraries).forM validateExecutableOrLibrary

/-- The data that the validation accepts. -/
structure Valid : Prop where
  name : data.name = [] ∨ profileNameChars data.name = true
  paths : ∀ path ∈ data.readOnly ++ data.writeOnly ++ data.readWrite, strictPathRegex path = true
  capabilities : ∀ capability ∈ data.capabilities, normalizeCapability capability ∈ validCapabilities
  ptrace : ∀ rule ∈ data.ptrace, rule.access ≠ [] ∧ (∀ access ∈ rule.access, access ∈ ptraceAccess) ∧
    (rule.peer = [] ∨ ptracePeerRegex rule.peer = true)
  executables : ∀ path ∈ data.executables ++ data.libraries, strictPathRegex path = true ∧ traverses path = false

theorem validate_ok : data.validate = .ok () ↔ data.Valid := by
  unfold validate
  simp only [Fallible.seq_ok, Fallible.forM_ok, Fallible.require_ok, validPath, validateCapability,
    validatePtraceRule, validateExecutableOrLibrary]
  constructor
  · rintro ⟨name, paths, capabilities, ptrace, executables⟩
    exact ⟨name, paths, capabilities, ptrace, executables⟩
  · exact fun valid => ⟨valid.name, valid.paths, valid.capabilities, valid.ptrace, valid.executables⟩

end ApparmorData

inductive AppArmorMode where
  | enforce
  | complain
deriving DecidableEq

def profileMode : AppArmorMode → Str
  | .enforce => "enforce".toList
  | .complain => "complain".toList

/-- `quotePath` quotes paths with spaces. -/
def quotePath (path : Str) : Str :=
  if "/".toList.isPrefixOf path && ' ' ∈ path then '"' :: (path ++ ['"']) else path

/-- One line of the text for each path: the access in front of it and behind it. -/
def pathLines (before after : String) (paths : List Str) : List Str :=
  paths.map fun path => before.toList ++ quotePath path ++ after.toList

/-- A blank line and the lines of a list, if it is not nil. -/
def listLines (paths : Option (List Str)) (lines : List Str → List Str) : List Str :=
  match paths with
  | none => []
  | some paths => [] :: lines paths

def executableLines : Option Executable → List Str
  | none => [[]]
  | some rules =>
    listLines rules.allowedExecutables (pathLines "  " " ixr,") ++
      [[]] ++ listLines rules.allowedLibraries (pathLines "  " " mr,") ++ [[]]

def filesystemLines (mode : AppArmorMode) : Option FileSystem → List Str
  | none => []
  | some rules =>
    listLines rules.readOnlyPaths (fun paths => pathLines "  " " r," paths ++ [[]] ++
        if mode = .complain then [] else pathLines "  deny " " wlk," paths) ++
      [[]] ++ listLines rules.writeOnlyPaths (fun paths => pathLines "  " " wlk," paths ++ [[]] ++
        if mode = .complain then [] else pathLines "  deny " " r," paths) ++
      [[]] ++ listLines rules.readWritePaths (pathLines "  " " rwlk,")

def ptraceLine (rule : PtraceRule) : Str :=
  "  ptrace ".toList ++ '(' :: (", ".toList.intercalate rule.access ++ ')' ::
    ((if rule.peer = [] then [] else " peer=".toList ++ rule.peer) ++ [',']))

def ptraceLines (rules : List PtraceRule) : List Str :=
  if rules = [] then [[], []] else [[], [], "  # Ptrace rules".toList] ++ rules.map ptraceLine ++ [[]]

def networkLines (mode : AppArmorMode) : Option Network → List Str
  | none => []
  | some rules =>
    [[]] ++ (if rules.allowRaw then ["  network raw,".toList]
      else [if mode = .complain then [] else "  deny network raw,".toList, []]) ++
      [[]] ++ (if rules.allowTCP then ["  network tcp,".toList] else []) ++
      [[]] ++ (if rules.allowUDP then ["  network udp,".toList] else [])

def capabilityLines (capabilities : List Str) : List Str :=
  capabilities.map fun capability => "  capability ".toList ++ capability ++ ",".toList

/-- The lines that let containers that exercise raw input and output use mount. -/
def mountLines (allowMount : Bool) (lines : List String) : List Str :=
  if allowMount then "  ".toList :: (lines.map String.toList ++ ["  ".toList]) else ["  ".toList]

/-- The default denials for paths known to leak information or to escalate privileges. -/
def defaultDenyLines : List Str :=
  ["  deny @\x7bPROC\x7d/* w,   # deny write for all files directly in /proc (not in a subdir)",
    "  deny @\x7bPROC\x7d/\x7b[^1-9],[^1-9][^0-9],[^1-9s][^0-9y][^0-9s],[^1-9][^0-9][^0-9][^0-9]*\x7d/** w,",
    "  deny @\x7bPROC\x7d/sys/[^k]** w,  # deny /proc/sys except /proc/sys/k* (effectively /proc/sys/kernel)",
    "  deny @\x7bPROC\x7d/sys/kernel/\x7b?,??,[^s][^h][^m]**\x7d w,  # deny everything except shm* in /proc/sys/kernel/",
    "  deny @\x7bPROC\x7d/sysrq-trigger rwklx,",
    "  deny @\x7bPROC\x7d/mem rwklx,",
    "  deny @\x7bPROC\x7d/kmem rwklx,",
    "  deny @\x7bPROC\x7d/kcore rwklx,",
    "  deny /sys/firmware/efi/efivars/** rwklx,"].map String.toList

def templateLines (mode : AppArmorMode) (allowMount : Bool) (data : ApparmorData) : List Str :=
  [[], "# Generated by https://github.com/kubernetes-sigs/security-profiles-operator, do not edit by hand.".toList,
    "#include <tunables/global>".toList,
    "profile ".toList ++ data.name ++ " flags=(".toList ++ profileMode mode ++
      ",attach_disconnected,mediate_deleted) \x7b".toList,
    "  #include <abstractions/base>".toList, [], "  # Executable rules".toList] ++
    executableLines data.executable ++ mountLines allowMount ["  /sbin/fsck ixr,", "  /sbin/fsck.ext4 ixr,"] ++
    [[], "  # Filesystem rules".toList] ++ filesystemLines mode data.filesystem ++ ptraceLines data.ptrace ++
    ["  # Network rules".toList] ++ networkLines mode data.network ++
    [[], [], "  # Capabilities rules".toList] ++ capabilityLines data.capabilities ++ [[], []] ++
    mountLines allowMount ["  mount,", "  remount,", "  umount,"] ++
    [[], "  # Raw rules placeholder".toList, [],
      "  # Add default deny for known information leak/priv esc paths".toList] ++
    (if mode = .complain then [] else [] :: defaultDenyLines) ++ [[], "\x7d".toList, []]

inductive GenerateError where
  | nilAbstract
  | invalid (error : ValidateError)

/-- Containers that exercise raw input and output may use mount. -/
def AppArmorAbstract.allowMount (abstract : AppArmorAbstract) : Bool :=
  "sys_rawio".toList ∈ normalizeCapabilities abstract.capabilities

/-- `generateProfile` writes the profile for a valid abstract one. -/
def generateProfile (name : Str) (mode : AppArmorMode) (abstract : Option AppArmorAbstract) :
    Except GenerateError Str :=
  match abstract with
  | none => .error .nilAbstract
  | some abstract =>
    let data := newApparmorData name abstract
    match data.validate with
    | .error error => .error (.invalid error)
    | .ok () => .ok (['\n'].intercalate (templateLines mode abstract.allowMount data))

/-- A profile is generated exactly if its data pass the validation. The text is the template for them, line by
line. -/
theorem generateProfile_ok {name text : Str} {mode : AppArmorMode} {abstract : AppArmorAbstract} :
    generateProfile name mode (some abstract) = .ok text ↔ (newApparmorData name abstract).Valid ∧
      text = ['\n'].intercalate (templateLines mode abstract.allowMount (newApparmorData name abstract)) := by
  rw [← ApparmorData.validate_ok]
  unfold generateProfile
  cases validated : (newApparmorData name abstract).validate with
  | error error => simp [validated]
  | ok _ =>
    simp only [validated, Except.ok.injEq, true_and]
    exact eq_comm

theorem generateProfile_valid {name : Str} {mode : AppArmorMode} {abstract : AppArmorAbstract}
    (valid : (newApparmorData name abstract).validate = .ok ()) : generateProfile name mode (some abstract) =
      .ok (['\n'].intercalate (templateLines mode abstract.allowMount (newApparmorData name abstract))) :=
  generateProfile_ok.mpr ⟨(ApparmorData.validate_ok _).mp valid, rfl⟩

end SecurityProfiles
