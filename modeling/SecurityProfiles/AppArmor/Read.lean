import SecurityProfiles.AppArmor.Generate

namespace SecurityProfiles

inductive Permission where
  | read
  | write
  | link
  | lock
  | mmap
  | exec
deriving DecidableEq

/-- The letters of file rules. The qualifier of an execution is no permission of its own. -/
def Permission.ofLetter : Char → Option Permission
  | 'r' => some .read
  | 'w' => some .write
  | 'l' => some .link
  | 'k' => some .lock
  | 'm' => some .mmap
  | 'x' => some .exec
  | _ => none

inductive PtracePermission where
  | read
  | trace
  | readby
  | tracedby
deriving DecidableEq

def PtracePermission.ofWord (word : Str) : List PtracePermission :=
  if word = "r".toList ∨ word = "read".toList then [.read]
  else if word = "w".toList ∨ word = "trace".toList then [.trace]
  else if word = "rw".toList then [.read, .trace]
  else if word = "readby".toList then [.readby]
  else if word = "tracedby".toList then [.tracedby]
  else []

inductive Subject where
  | file (path : Str) (permissions : List Permission)
  | network (kind : Str)
  | capability (name : Str)
  | ptrace (permissions : List PtracePermission) (peer : Option Str)
  | mount (operation : Str)
deriving DecidableEq

structure ProfileRule where
  deny : Bool
  subject : Subject
deriving DecidableEq

def readPermissions (path rest : Str) : Option Subject :=
  (Text.cut ',' rest).map fun parts => .file path (parts.1.filterMap Permission.ofLetter)

/-- The words in the parentheses of a ptrace rule, and the peer behind them. -/
def readPtraceParts (parts : Str × Str) : Option Subject :=
  let permissions := ((parts.1.filter (· ≠ ' ')).splitOn ',').flatMap PtracePermission.ofWord
  match Text.cutPrefix " peer=".toList parts.2 with
  | some peer => (Text.cut ',' peer).map fun parts => .ptrace permissions (some parts.1)
  | none => some (.ptrace permissions none)

def readPtrace : Str → Option Subject
  | '(' :: rest => (Text.cut ')' rest).bind readPtraceParts
  | _ => none

/-- Rules that start with a word. -/
def readKeyword (text : Str) : Option Subject :=
  match Text.cut ' ' text with
  | some (word, rest) =>
    if word = "network".toList then (Text.cut ',' rest).map fun parts => .network parts.1
    else if word = "capability".toList then (Text.cut ',' rest).map fun parts => .capability parts.1
    else if word = "ptrace".toList then readPtrace rest
    else none
  | none => (Text.cut ',' text).map fun parts => .mount parts.1

/-- A rule without its denial. Paths are quoted or end at a space. -/
def readSubject : Str → Option Subject
  | '"' :: rest => (Text.cut '"' rest).bind fun parts => readPermissions parts.1 parts.2
  | '/' :: rest => (Text.cut ' ' ('/' :: rest)).bind fun parts => readPermissions parts.1 parts.2
  | '@' :: rest => (Text.cut ' ' ('@' :: rest)).bind fun parts => readPermissions parts.1 parts.2
  | text => readKeyword text

/-- The rule on a line, none for blank lines, comments and the frame of the profile. -/
def readLine (line : Str) : Option ProfileRule :=
  let text := line.dropWhile (· = ' ')
  match Text.cutPrefix "deny ".toList text with
  | some rest => (readSubject rest).map (⟨true, ·⟩)
  | none => (readSubject text).map (⟨false, ·⟩)

def readProfile (text : Str) : List ProfileRule := (text.splitOn '\n').filterMap readLine

/-- What a confined process may attempt: on a file by its name, on the network, with a capability or on the
processes of a profile by its name. -/
inductive Access where
  | file (name : List Atom) (permission : Permission)
  | network (kind : Str)
  | capability (name : Str)
  | ptrace (permission : PtracePermission) (peer : List Atom)
  | mount (operation : Str)
deriving DecidableEq

/-- A rule without a peer is one for every peer. -/
def Subject.covers : Subject → Access → Bool
  | .file path permissions, .file name permission => permission ∈ permissions && pathMatches path name
  | .network kind, .network attempted => kind = attempted
  | .capability name, .capability attempted => name = attempted
  | .ptrace permissions peer, .ptrace permission name => permission ∈ permissions && peer.all (pathMatches · name)
  | .mount operation, .mount attempted => operation = attempted
  | _, _ => false

def allows (rules : List ProfileRule) (access : Access) : Bool :=
  rules.any fun rule => !rule.deny && rule.subject.covers access

def denies (rules : List ProfileRule) (access : Access) : Bool :=
  rules.any fun rule => rule.deny && rule.subject.covers access

def grants (rules : List ProfileRule) (access : Access) : Bool := allows rules access && !denies rules access

section append

variable (first second : List ProfileRule) (access : Access)

@[simp] theorem allows_append :
    allows (first ++ second) access = (allows first access || allows second access) := by
  simp [allows]

@[simp] theorem denies_append :
    denies (first ++ second) access = (denies first access || denies second access) := by
  simp [denies]

@[simp] theorem allows_nil : allows [] access = false := rfl

@[simp] theorem denies_nil : denies [] access = false := rfl

end append

end SecurityProfiles
