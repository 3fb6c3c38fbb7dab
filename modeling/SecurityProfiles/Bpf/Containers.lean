import SecurityProfiles.Library.SortedMap
import SecurityProfiles.AppArmor.Abstract
import SecurityProfiles.Bpf.Dropped

namespace SecurityProfiles.Bpf

open Threads

/-- A clock tick in nanoseconds. -/
def tick : Nat := 1000000000 / 100

/-- A process over its life: when it started and when its number got free again, in nanoseconds since boot, and what
its files tell. The fields before the start time and after it are words; the command may be any text. -/
structure Process where
  pid : Nat
  start : Nat
  exit : Option Nat
  comm : Str
  before : List Str
  after : List Str
  cgroup : Str
  mntns : Nat
  ordered : ∀ time, exit = some time → start ≤ time
  count : before.length = 19
  words : ∀ field ∈ before ++ after, Text.IsWord field ∧ ')' ∉ field

namespace Process

variable (process : Process)

def startTicks : Nat := process.start / tick

/-- `/proc/<pid>/stat` -/
def stat : Str :=
  Text.itoa process.pid ++ " (".toList ++ process.comm ++ ')' :: ' ' ::
    ([' '].intercalate (process.before ++ Text.itoa process.startTicks :: process.after) ++ ['\n'])

/-- `/proc/<pid>/ns/mnt` -/
def mountLink : Str := "mnt:[".toList ++ Text.itoa process.mntns ++ [']']

/-- The process has its number at a time. -/
def holds (pid now : Nat) : Bool := process.pid = pid && process.start ≤ now && process.exit.all (now < ·)

/-- The number of the process was free for a clock tick before the other one got it. -/
def Before (other : Process) : Prop := ∃ time, process.exit = some time ∧ time + tick ≤ other.start

end Process

/-- All processes of a host, in which a number is not used again within a clock tick. -/
structure History where
  processes : List Process
  apart : ∀ process ∈ processes, ∀ other ∈ processes, process.pid = other.pid →
    process = other ∨ process.Before other ∨ other.Before process

def History.holder (history : History) (pid now : Nat) : Option Process := history.processes.find? fun process =>
  process.holds pid now

inductive ContainerError where
  | readingStat
  | invalidStat
  | processNotFound
  | searchFailed
  | containerIDNotFound
  | startTime
  | processChanged
  | readingMntns
deriving DecidableEq

/-- `getProcessStartTimeTicks` skips the command, which may have spaces in it. -/
def getProcessStartTimeTicks (raw : Str) : Option Str :=
  match Text.afterLast ')' raw with
  | none => none
  | some rest => if rest.length ≤ 1 then none else (Text.fields (rest.drop 1))[19]?

/-- `processStartTime` is exact up to a clock tick. -/
def processStartTime (raw : Str) : Option Nat := do
  let text ← getProcessStartTimeTicks raw
  let ticks ← Text.parseInt text
  if ticks < 0 ∨ ticks > (2 ^ 63 - 1) / tick then none else some (ticks.toNat * tick)

def isContainerIDChar (char : Char) : Bool := char.isDigit || ('a' ≤ char && char ≤ 'f')

/-- All matches of `ContainerIDRegex`: 64 such characters in a row, counted from the last other character or match
on. -/
def findFrom (run : Str) : Str → List Str
  | [] => []
  | char :: rest =>
    if isContainerIDChar char then
      if run.length = 63 then (run ++ [char]) :: findFrom [] rest else findFrom (run ++ [char]) rest
    else findFrom [] rest

def findContainerIDs (text : Str) : List Str := findFrom [] text

def maxScanTokenSize : Nat := 64 * 1024

/-- The lines of a file. The last one may lack its end. -/
def scanLines (data : Str) : List Str :=
  if (data.splitOn '\n').getLast? = some [] then (data.splitOn '\n').dropLast else data.splitOn '\n'

def dropCR (line : Str) : Str := if line.getLast? = some '\r' then line.dropLast else line

/-- The last container of the first line that has one. A line that is too long ends the search. -/
def searchContainerID : List Str → Except ContainerError Str
  | [] => .error .containerIDNotFound
  | line :: rest =>
    if (line.map Char.utf8Size).sum ≥ maxScanTokenSize then .error .searchFailed
    else
      match (findContainerIDs (dropCR line)).getLast? with
      | some containerID => .ok containerID
      | none => searchContainerID rest

/-- What the lookup has to tell about a process. -/
def Process.container (process : Process) : Except ContainerError Str :=
  searchContainerID (scanLines process.cgroup)

/-- The time since boot, the cache of containers, and the answers that were given for events, which are for the
proofs only. -/
structure LookupState where
  now : Nat
  cache : SortedMap Str Str
  answers : List (NewPidEvent × Except ContainerError Str)

namespace LookupState

inductive Op where
  | uptime
  | cgroupPathForID (key : Nat)
  | readStat (pid : Nat)
  | getCache (key : Str)
  | readCgroup (pid : Nat)
  | setCache (key containerID : Str)
  | readMntns (pid : Nat)
  | answer (event : NewPidEvent) (result : Except ContainerError Str)

abbrev Answer : Op → Type
  | .uptime => Option Nat
  | .cgroupPathForID _ => Option Str
  | .readStat _ => Option Str
  | .getCache _ => Option Str
  | .readCgroup _ => Option Str
  | .readMntns _ => Option Str
  | _ => Unit

/-- Every read may fail. The choice tells the path of a cgroup. -/
inductive Choice where
  | works (path : Str)
  | fails

def Choice.answer {α : Type} : Choice → Option α → Option α
  | .works _, result => result
  | .fails, _ => none

def perform (history : History) : (op : Op) → Choice → LookupState → Option (Answer op × LookupState)
  | .uptime, choice, state => some (choice.answer (some state.now), state)
  | .cgroupPathForID _, .works path, state => some (some path, state)
  | .cgroupPathForID _, .fails, state => some (none, state)
  | .readStat pid, choice, state => some (choice.answer ((history.holder pid state.now).map Process.stat), state)
  | .getCache key, _, state => some (state.cache.lookup key, state)
  | .readCgroup pid, choice,
    state => some (choice.answer ((history.holder pid state.now).map Process.cgroup), state)
  | .setCache key containerID, _, state => some ((), { state with cache := state.cache.insert key containerID })
  | .readMntns pid, choice,
    state => some (choice.answer ((history.holder pid state.now).map Process.mountLink), state)
  | .answer event result, _, state => some ((), { state with answers := (event, result) :: state.answers })

/-- Time passes, and entries of the cache expire. -/
inductive Event where
  | pass (duration : Nat)
  | evict (key : Str)

def occur : Event → LookupState → Option LookupState
  | .pass duration, state => some { state with now := state.now + duration }
  | .evict key, state => some { state with cache := state.cache.erase key }

end LookupState

open LookupState

def lookups (history : History) : Interface where
  State := LookupState
  Op := LookupState.Op
  Answer := LookupState.Answer
  Choice := LookupState.Choice
  Event := LookupState.Event
  perform := LookupState.perform history
  occur := LookupState.occur

section code

variable {history : History}

/-- The key combines the number with the start time, so that a process which reuses the number has another one. -/
def cacheKey (pid : Nat) (startTime : Str) : Str := Text.itoa pid ++ '_' :: startTime

def containerIDForPID (pid : Nat) : Prog (lookups history) (Except ContainerError Str) :=
  .call (Op.readStat pid) fun (stat : Option Str) =>
    match stat with
    | none => .ret (.error .readingStat)
    | some raw =>
      match getProcessStartTimeTicks raw with
      | none => .ret (.error .invalidStat)
      | some startTime =>
        .call (Op.getCache (cacheKey pid startTime)) fun (item : Option Str) =>
          match item with
          | some containerID => .ret (.ok containerID)
          | none => .call (Op.readCgroup pid) fun (data : Option Str) =>
            match data with
            | none => .ret (.error .processNotFound)
            | some data =>
              match searchContainerID (scanLines data) with
              | .error error => .ret (.error error)
              | .ok containerID =>
                .call (Op.setCache (cacheKey pid startTime) containerID) fun _ => .ret (.ok containerID)

/-- `verifyProcess` checks that the process is still the one which was reported. A time of zero is not known. -/
def verifyProcess (event : NewPidEvent) : Prog (lookups history) (Except ContainerError Unit) :=
  .call (Op.readStat event.pid) fun (stat : Option Str) =>
    match stat.bind processStartTime with
    | none => .ret (.error .startTime)
    | some started =>
      if event.seenAt > 0 ∧ started > event.seenAt then .ret (.error .processChanged)
      else .call (Op.readMntns event.pid) fun (link : Option Str) =>
        match link with
        | none => .ret (.error .readingMntns)
        | some link =>
          if link = "mnt:[".toList ++ Text.itoa event.mntns ++ [']'] then .ret (.ok ())
          else .ret (.error .processChanged)

/-- A container, or that there is none: the errors of the lookup that are not final. -/
def isAnswer : Except ContainerError Str → Bool
  | .ok _ => true
  | .error error => error = .containerIDNotFound

/-- The lookup by the number of the process, which has to be the one that was reported. -/
def containerIDByPID (event : NewPidEvent) : Prog (lookups history) (Except ContainerError Str) := do
  let result ← containerIDForPID event.pid
  if isAnswer result then
    match ← verifyProcess event with
    | .error error => return .error error
    | .ok () => .call (Op.answer event result) fun _ => .ret result
  else return result

/-- `containerIDForKey` takes the container from the path of the cgroup if that has one, and looks it up by the
number of the process otherwise. -/
def containerIDForKey (cgroupKeys : Bool) (event : NewPidEvent) :
    Prog (lookups history) (Except ContainerError Str) :=
  if cgroupKeys then
    .call (Op.cgroupPathForID event.key) fun (path : Option Str) =>
      match path.bind fun path => (findContainerIDs path).getLast? with
      | some containerID => .ret (.ok containerID)
      | none => containerIDByPID event
  else containerIDByPID event

/-- The handling of events as far as their container is looked up: the events get the time of their reception, and
are looked up some time later. -/
structure LookupWorker where
  call : Nat
  pid : Nat
  mntns : Nat
  key : Nat
  generation : Nat
deriving DecidableEq

def LookupWorker.code (cgroupKeys : Bool) (worker : LookupWorker) : Prog (lookups history) Unit :=
  .call Op.uptime fun (seenAt : Option Nat) => do
    let _ ← containerIDForKey cgroupKeys ⟨worker.pid, worker.mntns, worker.key, worker.generation, seenAt.getD 0⟩
    return ()

end code

end SecurityProfiles.Bpf
