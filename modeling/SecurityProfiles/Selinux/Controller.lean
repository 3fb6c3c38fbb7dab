import SecurityProfiles.Selinux.Inherit
import SecurityProfiles.Naming.Statuses

namespace SecurityProfiles.Selinux

open Naming (ProfileState initialState)

/-- The kinds of profiles. Two profiles of the same name have the same policy name, and so the same policy file. -/
inductive Kind where
  | selinuxProfile
  | rawSelinuxProfile
deriving DecidableEq

def otherKind : Kind → Kind
  | .selinuxProfile => .rawSelinuxProfile
  | .rawSelinuxProfile => .selinuxProfile

/-- What the reconciler reads of a profile besides its spec. -/
structure Object where
  creationTimestamp : Nat
  deleting : Bool
  disabled : Bool
  isPartial : Bool
  inUse : Bool
  hasFinalizer : Bool

def Object.isReconcilable (object : Object) : Bool := !object.disabled && !object.isPartial

/-- A change of the policy file: the kind of the profile that it is made for, the new content unless the file is
removed, and the profiles at that time. -/
structure FileChange where
  changedFor : Kind
  content : Option Str
  objects : Kind → Option Object

/-- The profiles of the name, the spec of the one that is translated, the options of the daemon, and on the node the
states of the profiles, the policy file and all its changes. -/
structure Node where
  objects : Kind → Option Object
  profile : SelinuxProfile
  spod : SpodSelinux
  statuses : Kind → Option ProfileState
  file : Option Str
  changes : List FileChange

namespace Node

variable (node : Node) (kind : Kind)

def setObject (object : Option Object) : Node := { node with objects := Function.update node.objects kind object }

def setFinalizer (hasFinalizer : Bool) : Node :=
  node.setObject kind ((node.objects kind).map fun object => { object with hasFinalizer })

def setStatus (status : Option ProfileState) : Node :=
  { node with statuses := Function.update node.statuses kind status }

def setFile (content : Option Str) : Node :=
  { node with file := content, changes := ⟨kind, content, node.objects⟩ :: node.changes }

end Node

/-- How a change ends: it happens, it does not, or it happens and is reported as failed. -/
inductive Outcome where
  | done
  | failed
  | unreported
deriving DecidableEq

def attempt (outcome : Outcome) (effect : Node → Node) (node : Node) : Node × Bool :=
  match outcome with
  | .done => (effect node, true)
  | .failed => (node, false)
  | .unreported => (effect node, false)

/-- The reads of the API server in a reconcile. -/
inductive Read where
  | getProfile
  | exists
  | matches
  | getSpod
  | getOwner
  | conflictState
  | disabledState

/-- The changes of the API server in a reconcile. -/
inductive Write where
  | createFinalizer
  | createNodeStatus
  | setNodeStatus
  | removeFinalizer
  | removeNodeStatus

/-- What selinuxd tells about a policy. -/
inductive PolicyStatus where
  | notFound
  | unknown
  | installed
  | failed

inductive Reload where
  | done
  | busy
  | notCreated
  | notRecorded

/-- An inherited profile: whether it can be installed, and its state on the node, if that can be read. -/
structure Ancestor where
  usable : Bool
  state : Option (Option ProfileState)

/-- What the validation of a profile leaves: the names of the inherited profiles, and the text of the policy, if
there is one. -/
structure Handled where
  ancestors : List String
  cil : Option Str

/-- What a reconcile meets. -/
structure Environment where
  reads : Read → Bool
  writes : Write → Outcome
  legacyState : Option ProfileState
  api : Api
  ancestor : String → Ancestor
  handledRaw : Except ValidationError Handled
  selinuxdReady : Option Bool
  moduleInstalled : Bool
  statForConflict : Bool
  readFile : Bool
  writeFile : Outcome
  policyStatus : PolicyStatus
  statDisabled : Bool
  selinuxdReadyToDelete : Option Bool
  removeFile : Outcome
  removedStatus : PolicyStatus
  moduleLeft : Bool
  reload : Reload

inductive Result where
  | done
  | requeue
  | failed

/-- The result of the last call of a reconcile. -/
def finish (result : Result) (last : Node × Bool) : Node × Result := (last.1, if last.2 then result else .failed)

/-- The profile created first owns the policy, on a tie the SELinux profile. -/
def ownsPolicyBefore (kind : Kind) (object other : Object) : Bool :=
  if object.creationTimestamp ≠ other.creationTimestamp then object.creationTimestamp < other.creationTimestamp
  else kind = .selinuxProfile

/-- `policyOwner` tells whether the profile of the other kind owns the policy. -/
def policyOwner (kind : Kind) (object : Object) (other : Option Object) : Bool :=
  match other with
  | none => false
  | some other => !ownsPolicyBefore kind object other

section reconciler

variable (env : Environment) (kind : Kind)

/-- Whether the other profile owns the policy, if it can be read. -/
def findOwner (object : Object) (node : Node) : Option Bool :=
  if env.reads .getOwner then some (policyOwner kind object (node.objects (otherKind kind))) else none

/-- A missing status is only fine for a profile that is about to terminate. -/
def setNodeStatus (state : ProfileState) (node : Node) : Node × Bool :=
  if (node.statuses kind).isSome then attempt (env.writes .setNodeStatus) (·.setStatus kind (some state)) node
  else (node, state = .terminating)

def ensureNodeStatus (object : Object) (node : Node) : Node × Bool :=
  if !env.reads .exists then (node, false)
  else if object.hasFinalizer && (node.statuses kind).isSome then (node, true)
  else
    match attempt (env.writes .createFinalizer) (·.setFinalizer kind true) node with
    | (node, false) => (node, false)
    | (node, true) => attempt (env.writes .createNodeStatus)
        (·.setStatus kind (some (initialState object.disabled object.isPartial env.legacyState))) node

def waitForSelinuxd (node : Node) : Node × Result := finish .requeue (setNodeStatus env kind .inProgress node)

def handleValidationError (error : ValidationError) (node : Node) : Node × Result :=
  match error with
  | .temporary => (node, .failed)
  | .inheritNotFound _ => finish .requeue (setNodeStatus env kind .error node)
  | _ => finish .done (setNodeStatus env kind .error node)

/-- A module of the policy's name is ours if the file is there, or if the state tells that it got installed. -/
def conflictsWithSystemModule (node : Node) : Option Bool :=
  if !env.moduleInstalled then some false
  else if !env.statForConflict then none
  else if node.file.isSome then some false
  else if !env.reads .conflictState then none
  else
    match node.statuses kind with
    | some .inProgress | some .installed | some .terminating => some false
    | _ => some true

/-- The result of the reconcile if the policy name is taken. -/
def checkConflicts (object : Object) (node : Node) : Option (Node × Result) :=
  match findOwner env kind object node with
  | none => some (node, .failed)
  | some true => some (finish .done (setNodeStatus env kind .error node))
  | some false =>
    match conflictsWithSystemModule env kind node with
    | none => some (node, .failed)
    | some true => some (finish .done (setNodeStatus env kind .error node))
    | some false => none

inductive AncestorCheck where
  | installed
  | waiting
  | unusable
  | failed

def inheritedProfilesInstalled : List String → AncestorCheck
  | [] => .installed
  | name :: names =>
    if !(env.ancestor name).usable then .unusable
    else
      match (env.ancestor name).state with
      | none => .failed
      | some state =>
        if state = some .error then .unusable
        else if state ≠ some .installed then .waiting
        else inheritedProfilesInstalled names

/-- The result of the reconcile if the profiles that the policy inherits from are not installed yet. -/
def waitForAncestors (ancestors : List String) (node : Node) : Option (Node × Result) :=
  match inheritedProfilesInstalled env ancestors with
  | .installed => none
  | .waiting => some (finish .requeue (setNodeStatus env kind .pending node))
  | .unusable => some (finish .requeue (setNodeStatus env kind .error node))
  | .failed => some (node, .failed)

def maxPolicyFileSize : Nat := 10 * 1024 * 1024

/-- Whether the file got written, or none in case of an error. Only the start of the file is compared. -/
def writeFileIfDiffers (contents : Str) (node : Node) : Node × Option Bool :=
  if !env.readFile then (node, none)
  else if node.file.map (·.take maxPolicyFileSize) = some contents then (node, some false)
  else
    match attempt env.writeFile (·.setFile kind (some contents)) node with
    | (node, true) => (node, some true)
    | (node, false) => (node, none)

def reconcilePolicyFile (cil : Option Str) (node : Node) : Node × Option Bool :=
  match cil with
  | none => (node, none)
  | some contents => writeFileIfDiffers env kind contents node

def reloadInstalledPolicy : Result :=
  match env.reload with
  | .done => .done
  | .busy => .requeue
  | .notCreated | .notRecorded => .failed

def handlePolicyStatus (node : Node) : Node × Result :=
  match env.policyStatus with
  | .notFound => waitForSelinuxd env kind node
  | .unknown => (node, .failed)
  | .installed => finish (reloadInstalledPolicy env) (setNodeStatus env kind .installed node)
  | .failed => finish .done (setNodeStatus env kind .error node)

/-- The part of `reconcilePolicy` after the preconditions. -/
def installPolicy (object : Object) (handled : Handled) (node : Node) : Node × Result :=
  match checkConflicts env kind object node with
  | some ended => ended
  | none =>
    match waitForAncestors env kind handled.ancestors node with
    | some ended => ended
    | none =>
      match reconcilePolicyFile env kind handled.cil node with
      | (node, none) => (node, .failed)
      | (node, some true) => waitForSelinuxd env kind node
      | (node, some false) => handlePolicyStatus env kind node

/-- The removal of a policy must not fail because no job could be created. -/
def reloadRemovedPolicy : Result :=
  match env.reload with
  | .done | .notCreated => .done
  | .busy => .requeue
  | .notRecorded => .failed

def reconcileDeletePolicy (node : Node) : Node × Result :=
  match env.selinuxdReadyToDelete with
  | none => (node, .failed)
  | some false => (node, .requeue)
  | some true =>
    match node.file with
    | some _ => finish .requeue (attempt env.removeFile (·.setFile kind none) node)
    | none =>
      if env.removeFile ≠ .done then (node, .failed)
      else
        match env.removedStatus with
        | .notFound => (node, reloadRemovedPolicy env)
        | .unknown => (node, .failed)
        | .installed => (node, .requeue)
        | .failed => (node, if env.moduleLeft then .failed else .done)

def markDisabled (state : ProfileState) (node : Node) : Node × Result :=
  if state = .disabled then (node, .done) else finish .done (setNodeStatus env kind .disabled node)

def reconcileDisabledPolicy (object : Object) (node : Node) : Node × Result :=
  match node.statuses kind with
  | none => (node, .failed)
  | some state =>
    if !env.reads .disabledState || !env.statDisabled then (node, .failed)
    else if node.file.isSome || state = .inProgress || state = .installed then
      match findOwner env kind object node with
      | none => (node, .failed)
      | some true => markDisabled env kind state node
      | some false =>
        if object.inUse then (node, .requeue)
        else
          match reconcileDeletePolicy env kind node with
          | (node, .done) => markDisabled env kind state node
          | ended => ended
    else markDisabled env kind state node

def removeProfile (node : Node) : Node × Result :=
  match attempt (env.writes .removeFinalizer) (·.setFinalizer kind false) node with
  | (node, false) => (node, .failed)
  | (node, true) => finish .done (attempt (env.writes .removeNodeStatus) (·.setStatus kind none) node)

/-- Keep the policy if it is the one of another profile. -/
def handleDeletion (object : Object) (node : Node) : Node × Result :=
  match findOwner env kind object node with
  | none => (node, .failed)
  | some true => (node, .done)
  | some false => reconcileDeletePolicy env kind node

def reconcileDeletion (object : Object) (node : Node) : Node × Result :=
  if !object.hasFinalizer then (node, .done)
  else if !env.reads .exists then (node, .failed)
  else if (node.statuses kind).isSome && !env.reads .matches then (node, .failed)
  else if (node.statuses kind).isSome && node.statuses kind ≠ some .terminating then
    finish .requeue (setNodeStatus env kind .terminating node)
  else if object.inUse then (node, .requeue)
  else
    match handleDeletion env kind object node with
    | (node, .done) => removeProfile env kind node
    | ended => ended

/-- The validation of a profile and, if it succeeds, the translation. -/
def handle (node : Node) : Except ValidationError Handled :=
  match kind with
  | .rawSelinuxProfile => env.handledRaw
  | .selinuxProfile =>
    match validate env.api (if env.reads .getSpod then some node.spod else none) node.profile with
    | .error error => .error error
    | .ok inherits =>
      .ok { ancestors := inherits.objInherits.map (·.name)
            cil := (object2CIL (inherits.systemInherits.map String.toList)
              (inherits.objInherits.map fun ancestor => getPolicyName ancestor.toProfile) node.profile.toProfile
              (some node.spod.options)).toOption }

def reconcilePolicy (object : Object) (node : Node) : Node × Result :=
  match env.selinuxdReady with
  | none => (node, .failed)
  | some false => (node, .requeue)
  | some true =>
    if object.disabled && !object.isPartial then reconcileDisabledPolicy env kind object node
    else
      match handle env kind node with
      | .error error => handleValidationError env kind error node
      | .ok handled => if object.isReconcilable then installPolicy env kind object handled node else (node, .done)

def reconcile (node : Node) : Node × Result :=
  if !env.reads .getProfile then (node, .failed)
  else
    match node.objects kind with
    | none => (node, .done)
    | some object =>
      if object.deleting then reconcileDeletion env kind object node
      else
        match ensureNodeStatus env kind object node with
        | (node, false) => (node, .failed)
        | (node, true) => reconcilePolicy env kind object node

end reconciler

/-- What can happen: a profile is created, changed or gone, its spec or the options change, or it is reconciled. -/
inductive Step where
  | create (kind : Kind) (object : Object)
  | update (kind : Kind) (object : Object)
  | remove (kind : Kind)
  | specify (profile : SelinuxProfile)
  | configure (spod : SpodSelinux)
  | reconcile (kind : Kind) (env : Environment)

/-- The API server keeps the creation timestamp and the name of a profile. -/
def step (node : Node) : Step → Node
  | .create kind object => if (node.objects kind).isSome then node else node.setObject kind (some object)
  | .update kind object =>
    node.setObject kind
      ((node.objects kind).map fun old => { object with creationTimestamp := old.creationTimestamp })
  | .remove kind => node.setObject kind none
  | .specify profile => { node with profile := { profile with name := node.profile.name } }
  | .configure spod => { node with spod }
  | .reconcile kind env => (reconcile env kind node).1

def run (start : Node) (steps : List Step) : Node := steps.foldl step start

end SecurityProfiles.Selinux
