import SecurityProfiles.Library.SortedMap
import SecurityProfiles.Library.Threads

namespace SecurityProfiles.Enricher

open Threads

inductive AuditType where
  | seccomp
  | selinux
  | apparmor
deriving DecidableEq

/-- A line of the audit log, with the fields of system calls, of SELinux and of AppArmor. -/
structure AuditLine where
  auditType : AuditType
  processID : Nat
  timestampID : String
  systemCallID : Int
  executable : String
  arch : String
  uid : Option Nat
  gid : Option Nat
  scontext : String
  tcontext : String
  tclass : String
  perm : String
  apparmor : String
  operation : String
  profile : String
  name : String
  extraInfo : String
deriving DecidableEq

structure SyscallKey where
  id : Int
  arch : String
deriving DecidableEq

def AuditLine.syscallKey (line : AuditLine) : SyscallKey := ⟨line.systemCallID, line.arch⟩

structure ProcessInfo where
  pid : Nat
  cmdLine : String
  uid : Option Nat
  gid : Option Nat
  executable : String
  execRequestId : Option String
deriving DecidableEq

structure ContainerInfo where
  podName : String
  containerName : String
  podNamespace : String
  containerID : String
  recordProfile : String
deriving DecidableEq

structure LogBucket where
  locked : Bool
  emitted : Bool
  syscallIds : List SyscallKey
  containerInfo : Option ContainerInfo
  containerID : String
  processInfo : Option ProcessInfo
  timestampID : String
deriving DecidableEq

def LogBucket.blank : LogBucket := ⟨false, false, [], none, "", none, ""⟩

/-- What happens to buckets: a line is put into one, one is put into the cache, one is emitted with its content. -/
inductive Event where
  | put (line : AuditLine) (bucket : Nat)
  | cached (bucket : Nat)
  | emitted (bucket : Nat) (content : LogBucket)
deriving DecidableEq

/-- The buckets by number and how many were created, the cache by process, the buckets that were removed from the
cache and whose callback did not start yet, the callbacks that run, whether the log ended and the callbacks were
waited for, the seccomp lines so far, and what happened to buckets. -/
structure Buckets where
  buckets : Nat → LogBucket
  created : Nat
  logLinesCache : SortedMap Nat Nat
  removed : List Nat
  running : List Nat
  stopped : Bool
  closed : Bool
  accepted : List AuditLine
  log : List Event

/-- What the audit log gives: its end, or a line, which need not be one of an audit. -/
inductive Input where
  | ended
  | line (parsed : Option AuditLine)
deriving DecidableEq

/-- What is decided outside: the input, whether an item has expired, what is evicted for lack of capacity, what can
be read about a process and its container, and which callback starts. -/
inductive Choice where
  | input (input : Input)
  | expired (hidden : Bool)
  | victim (pid : Nat)
  | process (cmdLine : String) (execRequestId : Option String)
  | ebpf (loaded : Bool) (cmdLine : Option String) (execRequestId : Option String)
  | container (containerID : String) (info : Option ContainerInfo)
  | item (index : Nat)

def maxCacheItems : Nat := 1000

namespace Buckets

def initial : Buckets where
  buckets _ := .blank
  created := 0
  logLinesCache := .empty
  removed := []
  running := []
  stopped := false
  closed := false
  accepted := []
  log := []

def modify (state : Buckets) (bucket : Nat) (change : LogBucket → LogBucket) : Buckets :=
  { state with buckets := Function.update state.buckets bucket (change (state.buckets bucket)) }

/-- Remove an item from the cache, which gets a callback. -/
def evict (state : Buckets) (pid : Nat) : Buckets :=
  match state.logLinesCache.lookup pid with
  | none => state
  | some bucket => { state with
    logLinesCache := state.logLinesCache.erase pid, removed := state.removed ++ [bucket] }

def evictAll (state : Buckets) (pids : List Nat) : Buckets := pids.foldl evict state

/-- An item that the cache has already is overwritten without a callback. -/
def set (state : Buckets) (pid bucket victim : Nat) : Buckets :=
  let room :=
    if state.logLinesCache.lookup pid = none ∧ maxCacheItems ≤ state.logLinesCache.entries.length then
      state.evict victim
    else state
  { room with logLinesCache := room.logLinesCache.insert pid bucket, log := room.log ++ [.cached bucket] }

inductive Op where
  | nextLine
  | get (pid : Nat)
  | delete (pid : Nat)
  | lock (bucket : Nat)
  | unlock (bucket : Nat)
  | create (line : AuditLine)
  | fetchProcessInfo (bucket : Nat) (line : AuditLine)
  | processEbpf (bucket : Nat)
  | fetchContainerInfo (bucket : Nat)
  | storeSyscall (bucket : Nat) (line : AuditLine)
  | set (pid bucket : Nat)
  | deleteAll
  | awaitCallbacks
  | take (callback : Nat)
  | emit (bucket : Nat)
  | finish (callback : Nat)

abbrev Answer : Op → Type
  | .nextLine => Input
  | .get _ => Option Nat
  | .lock _ => LogBucket
  | .create _ => Nat
  | .take _ => Nat
  | _ => Unit

def newBucket (line : AuditLine) : LogBucket :=
  { LogBucket.blank with locked := true, timestampID := line.timestampID }

/-- The info is that of the process, with the executable, user and group of the line. -/
def fillProcessInfo (line : AuditLine) (cmdLine : String) (execRequestId : Option String) (bucket : LogBucket) :
    LogBucket :=
  match bucket.processInfo with
  | some _ => bucket
  | none => { bucket with
      processInfo := some ⟨line.processID, cmdLine, line.uid, line.gid, line.executable, execRequestId⟩ }

/-- What the eBPF program told fills the gaps. -/
def fillEbpf (loaded : Bool) (cmdLine execRequestId : Option String) (bucket : LogBucket) : LogBucket :=
  match loaded, bucket.processInfo with
  | true, some info => { bucket with
      processInfo := some { info with
        cmdLine := if info.cmdLine = "" then cmdLine.getD info.cmdLine else info.cmdLine
        execRequestId := info.execRequestId.or execRequestId } }
  | _, _ => bucket

def fillContainerInfo (containerID : String) (info : Option ContainerInfo) (bucket : LogBucket) : LogBucket :=
  match bucket.containerInfo with
  | some _ => bucket
  | none => { bucket with
      containerInfo := if containerID = "" then none else info
      containerID := containerID }

def addSyscall (key : SyscallKey) (bucket : LogBucket) : LogBucket :=
  if key ∈ bucket.syscallIds then bucket else { bucket with syscallIds := bucket.syscallIds ++ [key] }

/-- The pod may tell the container by now. -/
def markEmitted (info : Option ContainerInfo) (bucket : LogBucket) : LogBucket :=
  { bucket with
    emitted := true
    containerInfo :=
      if bucket.containerInfo = none ∧ bucket.containerID ≠ "" then info else bucket.containerInfo }

def Input.accepted : Input → List AuditLine
  | .line (some line) => if line.auditType = .seccomp then [line] else []
  | _ => []

/-- One operation. What a bucket holds is read as soon as it is locked. -/
def perform : (op : Op) → Choice → Buckets → Option (Answer op × Buckets)
  | .nextLine, .input input, state =>
    if state.stopped then none
    else some (input, { state with
      accepted := state.accepted ++ Input.accepted input
      stopped := input = .ended })
  | .get pid, .expired hidden, state => some (if hidden then none else state.logLinesCache.lookup pid, state)
  | .delete pid, _, state => some ((), state.evict pid)
  | .lock bucket, _, state =>
    if (state.buckets bucket).locked then none
    else some (state.buckets bucket, state.modify bucket fun content => { content with locked := true })
  | .unlock bucket, _, state => some ((), state.modify bucket fun content => { content with locked := false })
  | .create line, _, state => some (state.created,
      { state with
        buckets := Function.update state.buckets state.created (newBucket line)
        created := state.created + 1 })
  | .fetchProcessInfo bucket line, .process cmdLine execRequestId, state =>
    some ((), state.modify bucket (fillProcessInfo line cmdLine execRequestId))
  | .processEbpf bucket, .ebpf loaded cmdLine execRequestId, state =>
    some ((), state.modify bucket (fillEbpf loaded cmdLine execRequestId))
  | .fetchContainerInfo bucket, .container containerID info, state =>
    some ((), state.modify bucket (fillContainerInfo containerID info))
  | .storeSyscall bucket line, _, state =>
    some ((), { state.modify bucket (addSyscall line.syscallKey) with log := state.log ++ [.put line bucket] })
  | .set pid bucket, .victim victim, state => some ((), state.set pid bucket victim)
  | .deleteAll, _, state => some ((), state.evictAll (state.logLinesCache.entries.map Sigma.fst))
  | .awaitCallbacks, _, state =>
    if state.removed = [] ∧ state.running = [] then some ((), { state with closed := true }) else none
  | .take callback, .item index, state =>
    state.removed[index]?.map fun bucket => (bucket,
      { state with removed := state.removed.eraseIdx index, running := state.running ++ [callback] })
  | .emit bucket, .container _ info, state =>
    let emitted := markEmitted info (state.buckets bucket)
    some ((), { state with
      buckets := Function.update state.buckets bucket emitted
      log := state.log ++ [.emitted bucket emitted] })
  | .finish callback, _, state => some ((), { state with running := state.running.filter (· ≠ callback) })
  | _, _, _ => none

end Buckets

open Buckets

/-- Expired items are removed from the cache at any time. -/
def enricher : Interface where
  State := Buckets
  Op := Buckets.Op
  Answer := Buckets.Answer
  Choice := Choice
  Event := List Nat
  perform := Buckets.perform
  occur pids state := some (state.evictAll pids)

/-- A new bucket for the line, which is not cached yet. -/
def createBucket (line : AuditLine) : Prog enricher (Nat × Bool) :=
  .call (Op.create line) fun (bucket : Nat) => .ret (bucket, false)

/-- The locked bucket takes the line unless it was emitted meanwhile or another executable runs with the PID now. -/
def checkBucket (line : AuditLine) (bucket : Nat) (content : LogBucket) : Prog enricher (Nat × Bool) :=
  if content.emitted then .call (Op.unlock bucket) fun _ => createBucket line
  else if content.processInfo.any (·.executable ≠ line.executable) then
    .call (Op.unlock bucket) fun _ => .call (Op.delete line.processID) fun _ => createBucket line
  else .ret (bucket, true)

def lockedLogBucket (line : AuditLine) : Prog enricher (Nat × Bool) :=
  .call (Op.get line.processID) fun (found : Option Nat) =>
    match found with
    | none =>
      -- An expired bucket is emitted before the new one takes its place.
      .call (Op.delete line.processID) fun _ => createBucket line
    | some bucket => .call (Op.lock bucket) (checkBucket line bucket)

/-- Unlock the bucket, and put it into the cache if it is new. -/
def storeBucket (line : AuditLine) (bucket : Nat) (cached : Bool) : Prog enricher Unit :=
  .call (Op.unlock bucket) fun _ =>
    if cached then .ret () else .call (Op.set line.processID bucket) .ret

def fillBucket (line : AuditLine) (bucket : Nat) (cached : Bool) : Prog enricher Unit :=
  .call (Op.fetchProcessInfo bucket line) fun _ =>
  .call (Op.processEbpf bucket) fun _ =>
  .call (Op.fetchContainerInfo bucket) fun _ =>
  .call (Op.storeSyscall bucket line) fun _ => storeBucket line bucket cached

def processLine (parsed : Option AuditLine) : Prog enricher Unit :=
  match parsed with
  | none => .ret ()
  | some line =>
    if line.auditType ≠ .seccomp then .ret ()
    else lockedLogBucket line >>= fun (bucket, cached) => fillBucket line bucket cached

/-- One line, or the end of the log: then all buckets are emitted. -/
def processInput : Prog enricher Unit :=
  .call Op.nextLine fun (input : Input) =>
    match input with
    | .line parsed => processLine parsed
    | .ended => .call Op.deleteAll fun _ => .call Op.awaitCallbacks .ret

/-- The callback for an item that was removed from the cache. -/
def onEviction (callback : Nat) : Prog enricher Unit :=
  .call (Op.take callback) fun (bucket : Nat) =>
  .call (Op.lock bucket) fun _ =>
  .call (Op.emit bucket) fun _ =>
  .call (Op.unlock bucket) fun _ =>
  .call (Op.finish callback) .ret

/-- The goroutine that reads the log, and those of the callbacks. -/
inductive Goroutine where
  | lines
  | callback (number : Nat)
deriving DecidableEq

def Goroutine.code : Goroutine → Prog enricher Unit
  | .lines => processInput
  | .callback number => onEviction number

end SecurityProfiles.Enricher
