import SecurityProfiles.Library.Text

namespace SecurityProfiles

/-- A Go string by its characters. The data of the recorder are bytes, each of which is the character of its
number. -/
abbrev Str := List Char

instance : LawfulBEq Str := inferInstance

structure AppArmorExecutablesRules where
  allowedExecutables : List Str
  allowedLibraries : List Str
deriving DecidableEq

structure AppArmorFsRules where
  readOnlyPaths : List Str
  writeOnlyPaths : List Str
  readWritePaths : List Str
deriving DecidableEq

structure AppArmorAllowedProtocols where
  allowTCP : Option Bool
  allowUDP : Option Bool
deriving DecidableEq

structure AppArmorNetworkRules where
  allowRaw : Option Bool
  protocols : Option AppArmorAllowedProtocols
deriving DecidableEq

structure AppArmorCapabilityRules where
  allowedCapabilities : List Str
deriving DecidableEq

structure AppArmorPtraceRules where
  allowedAccess : List Str
  peer : Str
deriving DecidableEq

structure AppArmorAbstract where
  executable : Option AppArmorExecutablesRules
  filesystem : Option AppArmorFsRules
  network : Option AppArmorNetworkRules
  capability : Option AppArmorCapabilityRules
  ptrace : Option AppArmorPtraceRules
deriving DecidableEq

namespace AppArmorAbstract

variable (abstract : AppArmorAbstract)

def executables : List Str := (abstract.executable.map (·.allowedExecutables)).getD []
def libraries : List Str := (abstract.executable.map (·.allowedLibraries)).getD []
def readOnly : List Str := (abstract.filesystem.map (·.readOnlyPaths)).getD []
def writeOnly : List Str := (abstract.filesystem.map (·.writeOnlyPaths)).getD []
def readWrite : List Str := (abstract.filesystem.map (·.readWritePaths)).getD []
def capabilities : List Str := (abstract.capability.map (·.allowedCapabilities)).getD []
def allowRaw : Bool := (abstract.network.bind (·.allowRaw)).getD false
def allowTCP : Bool := ((abstract.network.bind (·.protocols)).bind (·.allowTCP)).getD false
def allowUDP : Bool := ((abstract.network.bind (·.protocols)).bind (·.allowUDP)).getD false

end AppArmorAbstract

/-- An access that a profile states by its text. -/
inductive AppArmorRule where
  | executable (path : Str)
  | library (path : Str)
  | read (path : Str)
  | write (path : Str)
  | raw
  | tcp
  | udp
  | capability (name : Str)
  | ptrace (access peer : Str)
deriving DecidableEq

/-- The rules of a profile. A ptrace rule without a peer is one for every peer. -/
def AppArmorAbstract.Grants (abstract : AppArmorAbstract) : AppArmorRule → Prop
  | .executable path => path ∈ abstract.executables
  | .library path => path ∈ abstract.libraries
  | .read path => path ∈ abstract.readOnly ∨ path ∈ abstract.readWrite
  | .write path => path ∈ abstract.writeOnly ∨ path ∈ abstract.readWrite
  | .raw => abstract.allowRaw = true
  | .tcp => abstract.allowTCP = true
  | .udp => abstract.allowUDP = true
  | .capability name => Text.toLower name ∈ abstract.capabilities.map Text.toLower
  | .ptrace access peer => ∃ rules, abstract.ptrace = some rules ∧ access ∈ rules.allowedAccess ∧
      (rules.peer = [] ∨ rules.peer = peer)

/-- A profile of the merger library, which knows no ptrace rules. -/
structure MergerProfile where
  executable : Option AppArmorExecutablesRules
  filesystem : Option AppArmorFsRules
  network : Option AppArmorNetworkRules
  capabilities : Option AppArmorCapabilityRules
deriving DecidableEq

def abstractToMergerProfile (abstract : AppArmorAbstract) : MergerProfile where
  executable := abstract.executable
  filesystem := abstract.filesystem
  network := abstract.network
  capabilities := abstract.capability

def mergerProfileToAbstract (profile : MergerProfile) : AppArmorAbstract where
  executable := profile.executable
  filesystem := profile.filesystem
  network := profile.network
  capability := profile.capabilities
  ptrace := none

end SecurityProfiles
