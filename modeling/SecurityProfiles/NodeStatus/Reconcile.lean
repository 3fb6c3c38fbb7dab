import SecurityProfiles.Library.Faulty
import SecurityProfiles.Library.FixedWidth
import SecurityProfiles.Naming.Finalizers
import SecurityProfiles.Naming.Statuses

namespace SecurityProfiles.NodeStatus

open Annotator (ProfileKind)
open FixedWidth (int32)
open Naming

/-- The status of a profile on a node, with the kind and name of its controller and an empty label if it has
none. -/
structure SecurityProfileNodeStatus where
  name : Str
  owner : Option (Str × Str)
  profileLabel : Str
  nodeName : Str
  status : Option ProfileState
deriving DecidableEq

structure Condition where
  conditionType : Str
  status : Bool
  reason : Str
  message : Str
  observedGeneration : Int
deriving DecidableEq

/-- The status of a profile. The field for the kind of profile tells where or how it is to be used. -/
structure ProfileStatus where
  status : Option ProfileState
  conditions : List Condition
  implementation : Str
deriving DecidableEq

structure Profile where
  kind : ProfileKind
  name : Str
  generation : Int
  finalizers : List Str
  deleting : Bool
  status : ProfileStatus
deriving DecidableEq

structure DaemonSet where
  generation : Int
  observedGeneration : Int
  desiredNumberScheduled : Int
  currentNumberScheduled : Int
  updatedNumberScheduled : Int
  numberAvailable : Int
  numberUnavailable : Int
  numberMisscheduled : Int
  hasSelector : Bool

/-- What the reconciler reads: the statuses in the order they are listed in, and the nodes of the pods of the
daemon. -/
structure Cluster where
  statuses : List SecurityProfileNodeStatus
  profiles : List Profile
  daemonSet : Option DaemonSet
  nodes : List Str
  podNodes : List Str

/-- A state that was written to the status of a profile. -/
structure Written where
  kind : ProfileKind
  name : Str
  state : ProfileState

structure Run where
  cluster : Cluster
  written : List Written

section states

def lowestState : ProfileState := .installed

def stateOrder : ProfileState → Nat
  | .error => 0
  | .terminating => 1
  | .isPartial => 2
  | .disabled => 3
  | .pending => 4
  | .inProgress => 5
  | .installed => 6

def orDefaultState (state : Option ProfileState) : ProfileState := state.getD .pending

def lowerOfTwoStates (currentLowest candidate : Option ProfileState) : ProfileState :=
  let currentLowest := orDefaultState currentLowest
  let candidate := orDefaultState candidate
  if stateOrder currentLowest > stateOrder candidate then candidate else currentLowest

def lowestCommonState (statuses : List SecurityProfileNodeStatus) : ProfileState :=
  statuses.foldl (fun lowest status => lowerOfTwoStates (some lowest) status.status) lowestState

end states

section conditions

def typeReady : Str := "Ready".toList

def conditionsEqual (first second : Condition) : Bool :=
  first.conditionType == second.conditionType && first.status == second.status && first.reason == second.reason &&
    first.message == second.message

/-- Replaces the conditions of the same type, unless they are equal. -/
def setConditions (conditions : List Condition) (new : Condition) : List Condition :=
  if conditions.any fun existing => existing.conditionType = new.conditionType then
    conditions.map fun existing =>
      if existing.conditionType ≠ new.conditionType || conditionsEqual existing new then existing else new
  else conditions ++ [new]

def setConditionForGeneration (conditions : List Condition) (new : Condition) (generation : Int) : List Condition :=
  (setConditions conditions { new with observedGeneration := generation }).map fun condition =>
    if condition.conditionType = new.conditionType then { condition with
      observedGeneration := generation } else condition

def creating : Condition := ⟨typeReady, false, "Creating".toList, [], 0⟩
def deleting : Condition := ⟨typeReady, false, "Deleting".toList, [], 0⟩
def available : Condition := ⟨typeReady, true, "Available".toList, [], 0⟩
def unavailable (message : String) : Condition := ⟨typeReady, false, "Unavailable".toList, message.toList, 0⟩

def conditionOf : ProfileState → Condition
  | .pending => creating
  | .inProgress => creating
  | .installed => available
  | .terminating => deleting
  | .error => unavailable "profile failed to install on one or more nodes"
  | .isPartial => unavailable "profile is only partially installed across nodes"
  | .disabled => unavailable "profile type is disabled in the SPOD configuration"

end conditions

def daemonSetIsReady (daemonSet : DaemonSet) : Bool :=
  daemonSet.desiredNumberScheduled > 0 && daemonSet.desiredNumberScheduled == daemonSet.numberAvailable

def daemonSetIsUpdating (daemonSet : DaemonSet) : Bool :=
  daemonSet.updatedNumberScheduled > 0 &&
    (daemonSet.updatedNumberScheduled < daemonSet.desiredNumberScheduled || daemonSet.numberUnavailable > 0)

def daemonSetSettled (daemonSet : DaemonSet) (podNodes : Nat) : Bool :=
  daemonSet.observedGeneration == daemonSet.generation && daemonSet.numberMisscheduled == 0 &&
    daemonSet.currentNumberScheduled == daemonSet.desiredNumberScheduled &&
    daemonSet.updatedNumberScheduled == daemonSet.desiredNumberScheduled &&
    int32 podNodes == daemonSet.desiredNumberScheduled

inductive ReconcileError where
  | cannotGetStatus
  | noOwnerProfile
  | unknownOwnerKind
  | gettingOwnerProfile
  | listingStatuses
  | cannotGetDS
  | listingPods
  | gettingNode
  | listingNodes
  | removingFinalizer
  | deletingStatus
  | updatingStatus

inductive Result where
  | done
  | afterSecond
  | afterDsWait
deriving DecidableEq

def newProfile (kind : Str) : Option ProfileKind :=
  [ProfileKind.seccomp, .selinux, .rawSelinux, .appArmor].find? fun known => kindName known = kind

section calls

def Cluster.status? (cluster : Cluster) (name : Str) : Option SecurityProfileNodeStatus :=
  cluster.statuses.find? fun status => status.name = name

def Cluster.profile? (cluster : Cluster) (kind : ProfileKind) (name : Str) : Option Profile :=
  cluster.profiles.find? fun profile => profile.kind = kind && profile.name = name

def Cluster.labelled (cluster : Cluster) (label : Str) : List SecurityProfileNodeStatus :=
  cluster.statuses.filter fun status => status.profileLabel = label

def Cluster.setProfile (cluster : Cluster) (profile : Profile) : Cluster :=
  { cluster with profiles := cluster.profiles.map fun other =>
      if other.kind = profile.kind && other.name = profile.name then profile else other }

def getStatus (name : Str) : Faulty Run (Option (Option SecurityProfileNodeStatus)) :=
  .query fun run => run.cluster.status? name

def getProfile (kind : ProfileKind) (name : Str) : Faulty Run (Option (Option Profile)) :=
  .query fun run => run.cluster.profile? kind name

def listStatusesForProfile (label : Str) : Faulty Run (Option (List SecurityProfileNodeStatus)) :=
  .query fun run => run.cluster.labelled label

/-- A daemon set that is not found is an error as well. -/
def getDS : Faulty Run (Option DaemonSet) := do
  return (← Faulty.query fun run : Run => run.cluster.daemonSet).join

def nodeNames : Faulty Run (Option (List Str)) := .query fun run => run.cluster.nodes

def nodeExists (name : Str) : Faulty Run (Option Bool) := .query fun run => name ∈ run.cluster.nodes

def listPodNodes : Faulty Run (Option (List Str)) := .query fun run => run.cluster.podNodes

def deleteStatus (name : Str) : Faulty Run Bool := .change fun run =>
  { run with cluster.statuses := run.cluster.statuses.filter fun status => status.name ≠ name }

def updateFinalizers (profile : Profile) : Faulty Run Bool := .change fun run =>
  { run with cluster := run.cluster.setProfile profile }

/-- The profile with its new status, and the state that was written. -/
def Run.putStatus (run : Run) (profile : Profile) (state : ProfileState) : Run :=
  { cluster := run.cluster.setProfile profile, written := run.written ++ [⟨profile.kind, profile.name, state⟩] }

def updateStatus (profile : Profile) (state : ProfileState) : Faulty Run Bool := .change (·.putStatus profile state)

end calls

section finalizers

variable (sha256 : Sha256)

/-- Remove one finalizer of the profile as it is now. A profile that is gone has none. -/
def removeFinalizer (profile : Profile) (finalizer : Str) : Faulty Run (Option Profile) := do
  match ← getProfile profile.kind profile.name with
  | none => return none
  | some none => return some profile
  | some (some current) =>
    if finalizer ∈ current.finalizers then
      let changed := { current with finalizers := current.finalizers.filter (· ≠ finalizer) }
      if ← updateFinalizers changed then return some changed else return none
    else return some current

def removeNodeFinalizers (profile : Profile) : List Str → Faulty Run (Option Profile)
  | [] => return some profile
  | finalizer :: rest => do
      if finalizer ∈ profile.finalizers then
        match ← removeFinalizer profile finalizer with
        | none => return none
        | some current => removeNodeFinalizers current rest
      else removeNodeFinalizers profile rest

def statusesOfDeletedNodes : List SecurityProfileNodeStatus →
    Faulty Run (Option (List SecurityProfileNodeStatus))
  | [] => return some []
  | status :: rest => do
      match ← nodeExists status.nodeName with
      | none => return none
      | some found =>
        match ← statusesOfDeletedNodes rest with
        | none => return none
        | some stale => return some (if found then stale else status :: stale)

/-- The nodes that run a pod of the daemon, and whether the daemon set has settled. -/
def spodNodes (daemonSet : DaemonSet) : Faulty Run (Option (List Str × Bool)) :=
  if daemonSet.hasSelector then do
    match ← listPodNodes with
    | none => return none
    | some podNodes =>
      let nodes := (podNodes.filter (· ≠ [])).dedup
      return some (nodes, daemonSetSettled daemonSet nodes.length)
  else return some ([], false)

def statusesOfUnscheduledNodes (daemonSet : DaemonSet) (statuses : List SecurityProfileNodeStatus) :
    Faulty Run (Option (List SecurityProfileNodeStatus)) := do
  match ← spodNodes daemonSet with
  | none => return none
  | some (_, false) => return some []
  | some (nodes, true) => return some (statuses.filter fun status => status.nodeName ∉ nodes)

/-- Remove the finalizer before the status, which is what finds the node again. -/
def removeStatuses (staleNodes nodeNames : List Str) (profile : Profile) :
    List SecurityProfileNodeStatus → Faulty Run (Except ReconcileError Unit)
  | [] => return .ok ()
  | status :: rest => do
      match ← removeNodeFinalizers profile (staleNodeFinalizers sha256 [status.nodeName] staleNodes nodeNames) with
      | none => return .error .removingFinalizer
      | some current =>
        if ← deleteStatus status.name then removeStatuses staleNodes nodeNames current rest
        else return .error .deletingStatus

def removeStale (profile : Profile) (stale : List SecurityProfileNodeStatus) :
    Faulty Run (Except ReconcileError Bool) := do
  if stale = [] then return .ok false
  else
    match ← nodeNames with
    | none => return .error .listingNodes
    | some names =>
      match ← removeStatuses sha256 (stale.map (·.nodeName)) names profile stale with
      | .error error => return .error error
      | .ok () => return .ok true

def removeStaleStatuses (profile : Profile) (daemonSet : DaemonSet) (statuses : List SecurityProfileNodeStatus) :
    Faulty Run (Except ReconcileError Bool) := do
  match ← statusesOfDeletedNodes statuses with
  | none => return .error .gettingNode
  | some [] =>
    match ← statusesOfUnscheduledNodes daemonSet statuses with
    | none => return .error .listingPods
    | some stale => removeStale sha256 profile stale
  | some stale => removeStale sha256 profile stale

end finalizers

section reconcile

variable (sha256 : Sha256) (implementationStatus : ProfileKind → Str → Str)

def getProfileFromStatus (status : SecurityProfileNodeStatus) : Faulty Run (Except ReconcileError Profile) := do
  match status.owner with
  | none => return .error .noOwnerProfile
  | some (kind, name) =>
    match newProfile kind with
    | none => return .error .unknownOwnerKind
    | some kind =>
      match (← getProfile kind name).join with
      | none => return .error .gettingOwnerProfile
      | some profile => return .ok profile

def withState (profile : Profile) (state : ProfileState) : Profile :=
  { profile with status :=
    { status := some state
      conditions := setConditionForGeneration profile.status.conditions (conditionOf state) profile.generation
      implementation := implementationStatus profile.kind profile.name } }

/-- Nothing is written if nothing changes. -/
def updateProfileStatus (profile : Profile) (state : ProfileState) : Faulty Run Bool :=
  let desired := withState implementationStatus profile state
  if profile.status = desired.status then pure true else updateStatus desired state

/-- The profile at hand, or the one that is read again. -/
def currentProfile (profile : Profile) : Option Profile → Faulty Run (Option (Option Profile))
  | some current => return some (some current)
  | none => getProfile profile.kind profile.name

/-- The profile is read again after a conflict. One that is gone has no status to update. -/
def reconcileStatus (profile : Profile) (state : ProfileState) :
    Nat → Option Profile → Faulty Run (Except ReconcileError Unit)
  | 0, _ => return .error .updatingStatus
  | attempts + 1, current => do
      match ← currentProfile profile current with
      | none => return .error .updatingStatus
      | some none => return .ok ()
      | some (some current) =>
        if ← updateProfileStatus implementationStatus current state then return .ok ()
        else
          match ← Faulty.select fun _ => [()] with
          | none => return .error .updatingStatus
          | some () => reconcileStatus profile state attempts none

def defaultRetrySteps : Nat := 5

/-- The state of all statuses, once the finalizers of deleted nodes are removed. -/
def aggregate (profile : Profile) (statuses : List SecurityProfileNodeStatus) (requeue : Result) :
    Faulty Run (Except ReconcileError Result) := do
  match ← nodeNames with
  | none => return .error .listingNodes
  | some names =>
    match ← removeNodeFinalizers profile (deletedNodeFinalizers sha256 profile.finalizers names) with
    | none => return .error .removingFinalizer
    | some current =>
      match ← reconcileStatus implementationStatus current (lowestCommonState statuses) defaultRetrySteps
          (some current) with
      | .error error => return .error error
      | .ok () => return .ok requeue

/-- Nothing is aggregated until there is a status for each node that the daemon is scheduled to. -/
def reconcileStatuses (profile : Profile) (statuses : List SecurityProfileNodeStatus) (daemonSet : DaemonSet) :
    Faulty Run (Except ReconcileError Result) := do
  if !daemonSetIsReady daemonSet || daemonSetIsUpdating daemonSet then return .ok .afterDsWait
  else
    let hasStatuses := int32 statuses.length
    let wantsStatuses := daemonSet.desiredNumberScheduled
    if wantsStatuses > hasStatuses then return .ok .done
    else if wantsStatuses < hasStatuses then
      match ← removeStaleStatuses sha256 profile daemonSet statuses with
      | .error error => return .error error
      | .ok true => return .ok .afterSecond
      | .ok false => aggregate sha256 implementationStatus profile statuses .afterDsWait
    else aggregate sha256 implementationStatus profile statuses .done

def kindBasedDNSLengthName (kind : ProfileKind) (name : Str) : Str :=
  dnsLengthName sha256 (kindName kind) (kindName kind ++ '-' :: name)

def reconcileProfileOf (status : SecurityProfileNodeStatus) (profile : Profile) :
    Faulty Run (Except ReconcileError Result) := do
  if profile.status.status = none then
    match ← reconcileStatus implementationStatus profile (orDefaultState status.status) defaultRetrySteps
        (some profile) with
    | .error error => return .error error
    | .ok () => return .ok .done
  else if status.profileLabel = [] then return .ok .done
  else if kindBasedDNSLengthName sha256 profile.kind profile.name ≠ status.profileLabel then return .ok .done
  else
    match ← listStatusesForProfile status.profileLabel with
    | none => return .error .listingStatuses
    | some statuses =>
      match ← getDS with
      | none => return .error .cannotGetDS
      | some daemonSet => reconcileStatuses sha256 implementationStatus profile statuses daemonSet

def reconcileNodeStatus (name : Str) : Faulty Run (Except ReconcileError Result) := do
  match ← getStatus name with
  | none => return .error .cannotGetStatus
  | some none => return .ok .done
  | some (some status) =>
    match ← getProfileFromStatus status with
    | .error error => return .error error
    | .ok profile => reconcileProfileOf sha256 implementationStatus status profile

/-- The lowest name of a status that the profile controls. -/
def firstOwnedStatus (statuses : List SecurityProfileNodeStatus) (kind name : Str) : Option Str :=
  ((statuses.filter fun status => status.owner = some (kind, name)).map (·.name)).min?

/-- Remove the finalizers of nodes whose daemon cannot do it anymore. -/
def removeUnscheduled (profile : Profile) (names : List Str) (daemonSet : DaemonSet) :
    Faulty Run (Except ReconcileError Result) := do
  match ← spodNodes daemonSet with
  | none => return .error .listingPods
  | some (nodes, settled) =>
    let unscheduled := names.filter (· ∉ nodes)
    let stale := deletedNodeFinalizers sha256 profile.finalizers names ++
      if settled then staleNodeFinalizers sha256 unscheduled unscheduled names else []
    match ← removeNodeFinalizers profile stale with
    | none => return .error .removingFinalizer
    | some current =>
      if !settled && current.finalizers.any isNodeFinalizer then return .ok .afterDsWait else return .ok .done

def reconcileDeletingProfile (kind : Str) (name : Str) : Faulty Run (Except ReconcileError Result) := do
  match newProfile kind with
  | none => return .error .unknownOwnerKind
  | some kind =>
    match ← getProfile kind name with
    | none => return .error .gettingOwnerProfile
    | some none => return .ok .done
    | some (some profile) =>
      if profile.deleting then
        match ← nodeNames with
        | none => return .error .listingNodes
        | some names =>
          match ← getDS with
          | none => return .error .cannotGetDS
          | some daemonSet => removeUnscheduled sha256 profile names daemonSet
      else return .ok .done

/-- The first node status of a profile is reconciled, if it has one. -/
def reconcileFirst (first : Option Str) : Faulty Run (Except ReconcileError Result) :=
  match first with
  | none => pure (.ok .done)
  | some first => reconcileNodeStatus sha256 implementationStatus first

def reconcileProfile (kind name : Str) : Faulty Run (Except ReconcileError Result) := do
  match ← listStatusesForProfile (dnsLengthName sha256 kind (kind ++ '-' :: name)) with
  | none => return .error .listingStatuses
  | some statuses =>
    match ← reconcileFirst sha256 implementationStatus (firstOwnedStatus statuses kind name) with
    | .error error => return .error error
    | .ok statusResult =>
      match ← reconcileDeletingProfile sha256 kind name with
      | .error error => return .error error
      | .ok deletionResult => return .ok (if statusResult = .done then deletionResult else statusResult)

/-- A request names a node status, or the kind and name of a profile with a slash between them. -/
def reconcile (request : Str) : Faulty Run (Except ReconcileError Result) :=
  match Text.cut '/' request with
  | some (kind, name) => reconcileProfile sha256 implementationStatus kind name
  | none => reconcileNodeStatus sha256 implementationStatus request

end reconcile

end SecurityProfiles.NodeStatus
