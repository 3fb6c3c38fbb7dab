import SecurityProfiles.AppArmor.Abstract
import SecurityProfiles.Library.Store
import SecurityProfiles.Library.Threads

namespace SecurityProfiles.Locking

open Threads
open VersionedStore (ApiError isNotFoundOrConflict ignoreNotFound)

/-- Both trackers work alike, each on its kind of object. -/
inductive Tracker where
  | binding
  | recording

/-- The finalizer that keeps an object with active workloads from being deleted. -/
def Tracker.finalizer : Tracker → Str
  | .binding => "active-workload-lock".toList
  | .recording => "active-seccomp-profile-recording-lock".toList

/-- What the trackers read and write of a binding or recording. -/
structure Tracked where
  finalizers : List Str
  activeWorkloads : List Str
deriving DecidableEq

/-- One object on the API server with its earlier versions, the oldest first. -/
structure Server where
  past : List Tracked
  current : Tracked
  gone : Bool
  failures : Nat

namespace Server

def versions (server : Server) : List Tracked := server.past ++ [server.current]

def version (server : Server) : Nat := server.past.length

def create (object : Tracked) : Server := { past := [], current := object, gone := false, failures := 0 }

def put (server : Server) (object : Tracked) : Server :=
  { server with past := server.versions, current := object }

end Server

/-- An object as read, with its resource version. -/
structure Read where
  version : Nat
  object : Tracked

inductive Op where
  /-- A read by the API reader. -/
  | get
  /-- A read by the cached client. -/
  | getCached
  | updateStatus (version : Nat) (activeWorkloads : List Str)
  | update (version : Nat) (finalizers : List Str)
  /-- The run ends with an error. -/
  | fail
deriving DecidableEq

abbrev Op.Answer : Op → Type
  | .get => Except ApiError Read
  | .getCached => Except ApiError Read
  | .updateStatus _ _ => Except ApiError Unit
  | .update _ _ => Except ApiError Unit
  | .fail => Unit

/-- How a call fares: it is carried out, from the given version if it is a cached read, it fails, or it is carried
out and the reply is lost. -/
inductive Choice where
  | serve (version : Nat)
  | refuse
  | lose
deriving DecidableEq

namespace Server

/-- A write is refused if the object was written since it was read. -/
def write (server : Server) (version : Nat) (change : Tracked → Tracked) : Choice → Except ApiError Unit × Server
  | .refuse => (.error .other, server)
  | choice =>
    if server.gone then (.error .notFound, server)
    else if server.version = version then
      (if choice = .lose then .error .other else .ok (), server.put (change server.current))
    else (.error .conflict, server)

def read (server : Server) (version : Nat) (found : Option Tracked) : Option (Except ApiError Read × Server) :=
  found.map fun object => (if server.gone then .error .notFound else .ok ⟨version, object⟩, server)

def perform : (op : Op) → Choice → Server → Option (op.Answer × Server)
  | .get, .serve _, server => server.read server.version (some server.current)
  | .getCached, .serve version, server => server.read version server.versions[version]?
  | .get, _, server => some (.error .other, server)
  | .getCached, _, server => some (.error .other, server)
  | .updateStatus version activeWorkloads, choice, server =>
    some (server.write version (fun object => { object with activeWorkloads := activeWorkloads }) choice)
  | .update version finalizers, choice, server =>
    some (server.write version (fun object => { object with finalizers := finalizers }) choice)
  | .fail, _, server => some ((), { server with failures := server.failures + 1 })

def remove (server : Server) : Server := { server with gone := true }

end Server

abbrev api : Interface where
  State := Server
  Op := Op
  Answer := Op.Answer
  Choice := Choice
  Event := Unit
  perform := Server.perform
  occur _ server := some server.remove

def appendIfNotExists (list : List Str) (item : Str) : List Str :=
  if item ∈ list then list else list ++ [item]

/-- Without the first occurrence of the item. -/
def removeIfExists (list : List Str) (item : Str) : List Str := list.erase item

/-- Five attempts at most. -/
def retry {α : Type} (attempt : Prog api (Except ApiError α)) : Prog api (Except ApiError α) :=
  attempt.retry isNotFoundOrConflict 4

/-- Change the active workloads of the object as the API server has it. -/
def updateWorkloads (change : List Str → List Str) : Prog api (Except ApiError Unit) :=
  .call Op.get fun
    | .error .notFound => .ret (.ok ())
    | .error error => .ret (.error error)
    | .ok read =>
      let updated := change read.object.activeWorkloads
      if updated.length = read.object.activeWorkloads.length then .ret (.ok ())
      else .call (Op.updateStatus read.version updated) .ret

/-- Add the finalizer, unless the object in the cache has it. -/
def addFinalizer (finalizer : Str) : Prog api (Except ApiError Unit) :=
  .call Op.getCached fun
    | .error error => .ret (.error error)
    | .ok read =>
      if finalizer ∈ read.object.finalizers then .ret (.ok ())
      else .call (Op.update read.version (read.object.finalizers ++ [finalizer])) .ret

/-- Remove the finalizer from the object as the API server has it, unless a workload is active. -/
def removeFinalizer (finalizer : Str) : Prog api (Except ApiError Unit) :=
  .call Op.get fun
    | .error .notFound => .ret (.ok ())
    | .error error => .ret (.error error)
    | .ok read =>
      if read.object.activeWorkloads.length > 0 || finalizer ∉ read.object.finalizers then .ret (.ok ())
      else .call (Op.update read.version (read.object.finalizers.filter (· ≠ finalizer))) fun result =>
        .ret (ignoreNotFound result)

def trackPod (finalizer podID : Str) : Prog api (Except ApiError Unit) := do
  match ← retry (updateWorkloads fun workloads => appendIfNotExists workloads podID) with
  | .error error => return .error error
  | .ok () => retry (do return ignoreNotFound (← addFinalizer finalizer))

def untrackPod (finalizer podID : Str) : Prog api (Except ApiError Unit) := do
  match ← retry (updateWorkloads fun workloads => removeIfExists workloads podID) with
  | .error error => return .error error
  | .ok () => retry (removeFinalizer finalizer)

/-- A run of the tracker. The number tells runs for the same pod apart. -/
structure Run where
  tracks : Bool
  podID : Str
  number : Nat
deriving DecidableEq

def Tracker.update (tracker : Tracker) (run : Run) : Prog api (Except ApiError Unit) :=
  if run.tracks then trackPod tracker.finalizer run.podID else untrackPod tracker.finalizer run.podID

def Tracker.code (tracker : Tracker) (run : Run) : Prog api Unit := do
  match ← tracker.update run with
  | .ok () => return ()
  | .error _ => .call Op.fail .ret

end SecurityProfiles.Locking
