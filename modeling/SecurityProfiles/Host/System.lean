import SecurityProfiles.AppArmor.Defines
import SecurityProfiles.Library.Faulty
import SecurityProfiles.Library.SortedMap
import SecurityProfiles.Profiles.Name

namespace SecurityProfiles.Host

inductive ProfileState where
  | pending
  | disabled
  | isPartial
  | installed
  | terminating
deriving DecidableEq

/-- The state of a profile on the node, and whether it is annotated as one that was installed by the operator. -/
structure NodeStatus where
  state : Option ProfileState
  installed : Bool
deriving DecidableEq

/-- `profileFilename` names the file of a profile by the convention of AppArmor. -/
def profileFilename (profileName : Str) : Str :=
  ((profileName.map fun char => if char = '/' then '.' else char).dropWhile (· = '.')).rdropWhile (· = '.')

def targetProfileDir : Str := "/etc/apparmor.d/".toList

def policyPath (profileName : Str) : Str := FilePath.join [targetProfileDir, profileFilename profileName]

/-- The policy files, the policies in the kernel by the text they were loaded from, and all versions of the node
statuses, which had other names in earlier releases. For the proofs there are also the names of the policies that
were loaded or deleted so far, and of those that were stranded: their file was removed while they were loaded. -/
structure System where
  files : SortedMap Str Str
  loaded : SortedMap Str Str
  touched : List Str
  stranded : List Str
  statuses : List (Str × NodeStatus)
  legacy : SortedMap Str ProfileState

namespace System

variable (system : System)

def write (path text : Str) : System := { system with files := system.files.insert path text }

def remove (path : Str) : System :=
  { system with
    files := system.files.erase path
    stranded := (system.loaded.entries.map (·.1)).filter (policyPath · = path) ++ system.stranded }

def load (path : Str) : System :=
  match system.files.lookup path with
  | none => system
  | some text =>
    { system with
      loaded := (definedPolicies text).foldl (fun loaded name => loaded.insert name text) system.loaded
      touched := definedPolicies text ++ system.touched }

def delete (name : Str) : System :=
  { system with loaded := system.loaded.erase name, touched := name :: system.touched }

def putStatus (name : Str) (status : NodeStatus) : System :=
  { system with statuses := (name, status) :: system.statuses }

def removeLegacy (name : Str) : System := { system with legacy := system.legacy.erase name }

end System

/-- Calls that may fail and change nothing that is modelled. -/
def call : Faulty System Bool := Faulty.change id

/-- Entering the mount namespace of the host. -/
def enterHost : Faulty System Bool := call

def readFile (path : Str) : Faulty System (Option (Option Str)) := Faulty.query (·.files.lookup path)

/-- `writeFileAtomic` replaces the file at once, and may fail after that. -/
def writeFileAtomic (path text : Str) : Faulty System Bool := Faulty.change (·.write path text)

def removeFile (path : Str) : Faulty System Bool := Faulty.change (·.remove path)

def policyLoaded (name : Str) : Faulty System (Option Bool) :=
  Faulty.query fun system => (system.loaded.lookup name).isSome

def loadPolicy (path : Str) : Faulty System Bool := Faulty.change (·.load path)

def deletePolicy (name : Str) : Faulty System Bool := Faulty.change (·.delete name)

/-- The node status of a profile, if there is one. Any of its versions may be read. -/
def readStatus (name : Str) : Faulty System (Option (Option NodeStatus)) :=
  Faulty.select fun system => none :: (system.statuses.filter (·.1 = name)).map fun status => some status.2

def writeStatus (name : Str) (status : NodeStatus) : Faulty System Bool := Faulty.change (·.putStatus name status)

end SecurityProfiles.Host
