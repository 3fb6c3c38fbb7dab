import SecurityProfiles.Host.System

namespace SecurityProfiles.Host

/-- The first line of the policy files of the operator. -/
def managedByLine : Str := "# Managed by security-profiles-operator. Do not edit.".toList

def managedByMarker : Str := managedByLine ++ ['\n']

structure AppArmorProfile where
  name : ObjectName
  mode : AppArmorMode
  abstract : AppArmorAbstract
  disabled : Bool
  isPartial : Bool
  deleting : Bool
  inUse : Bool
  hasFinalizer : Bool

def AppArmorProfile.policy (profile : AppArmorProfile) : Except GenerateError Str :=
  generateProfile profile.name.value profile.mode (some profile.abstract)

inductive ManagerError where
  | runtimeProfile
  | profileExists
  | generating (error : GenerateError)
  | enteringHost
  | readingPolicyFile
  | hostPolicyFile
  | policyStatus
  | writingPolicyFile
  | loadPolicy
  | notLoaded
  | deletingPolicy
  | removingPolicyFile

def runtimeProfiles : List Str := ["cri-containerd.apparmor.d", "crio-default", "docker-default"].map String.toList

def runtimeProfilePrefixes : List Str := ["containers-default-", "crio-default-"].map String.toList

def isRuntimeProfile (name : Str) : Bool :=
  name ∈ runtimeProfiles || runtimeProfilePrefixes.any (·.isPrefixOf name)

/-- `checkProfileExist` takes a profile to exist if that cannot be found out. -/
def checkProfileExist (name : Str) : Faulty System Bool := do
  if ← enterHost then return (← policyLoaded name).getD true else return true

/-- `fileManagedByUs` tells whether the file starts with the marker. One that cannot be read does not. -/
def fileManagedByUs (path : Str) : Faulty System Bool := do
  return ((← readFile path).join.map (managedByMarker.isPrefixOf ·)).getD false

def fileHasContent (path want : Str) : Faulty System Bool := do
  if want = [] then return false else return (← readFile path).join = some want

def profileManagedByUs (name : Str) : Faulty System Bool := do
  if ← enterHost then fileManagedByUs (policyPath name) else return false

/-- The previous file is put back if a policy could not be loaded. -/
def restore (path : Str) : Option Str → Faulty System Bool
  | none => removeFile path
  | some previous => writeFileAtomic path previous

/-- The policy is written and loaded. -/
def replacePolicyFile (path name policy : Str) (previous : Option Str) :
    Faulty System (Except ManagerError Bool) := do
  if ← writeFileAtomic path policy then
    if ← loadPolicy path then
      match ← policyLoaded name with
      | some true => return .ok true
      | some false => do
          let _ ← restore path previous
          return .error .notLoaded
      | none => do
          let _ ← restore path previous
          return .error .policyStatus
    else do
      let _ ← restore path previous
      return .error .loadPolicy
  else return .error .writingPolicyFile

/-- The file at the location of a policy file is neither ours by its caller, nor by its marker or content. -/
def foreignFile (content : Str) (ownedByUs : Bool) : Option Str → Bool
  | none => false
  | some previous => !ownedByUs && !managedByMarker.isPrefixOf previous && previous ≠ content

/-- The answer of the kernel, asked only if it matters. -/
def loadedAlready (name : Str) (same : Bool) : Faulty System (Option Bool) :=
  if same then policyLoaded name else pure (some false)

/-- `loadPolicyFile` returns false if there is nothing to do, and leaves a file of the host alone. -/
def loadPolicyFile (path name content : Str) (ownedByUs : Bool) : Faulty System (Except ManagerError Bool) := do
  match ← readFile path with
  | none => return .error .readingPolicyFile
  | some previous =>
    if foreignFile content ownedByUs previous then return .error .hostPolicyFile
    else
      match ← loadedAlready name (previous = some (managedByMarker ++ content)) with
      | none => return .error .policyStatus
      | some true => return .ok false
      | some false => replacePolicyFile path name (managedByMarker ++ content) previous

def loadProfile (name content : Str) (ownedByUs : Bool) : Faulty System (Except ManagerError Bool) := do
  if ← enterHost then loadPolicyFile (policyPath name) name content ownedByUs else return .error .enteringHost

/-- A profile of the host that must not be replaced. -/
def hostProfile (name : Str) (ownedByUs : Bool) : Faulty System Bool := do
  if ← checkProfileExist name then
    if ownedByUs then return false else return !(← profileManagedByUs name)
  else return false

def installProfile (profile : AppArmorProfile) (ownedByUs : Bool) : Faulty System (Except ManagerError Bool) := do
  if isRuntimeProfile profile.name.value then return .error .runtimeProfile
  else if ← hostProfile profile.name.value ownedByUs then return .error .profileExists
  else
    match profile.policy with
    | .error error => return .error (.generating error)
    | .ok content => loadProfile profile.name.value content ownedByUs

/-- `policyFileOwned` takes a policy without a file to be ours only if the caller has evidence for it. -/
def policyFileOwned (path policy : Str) (ownedByUs : Bool) : Faulty System Bool := do
  match ← readFile path with
  | some none => return ownedByUs
  | _ => if ← fileManagedByUs path then return true else fileHasContent path policy

def unloadPolicy (name : Str) : Faulty System (Except ManagerError Unit) := do
  match ← policyLoaded name with
  | none => return .error .policyStatus
  | some false => return .ok ()
  | some true => if ← deletePolicy name then return .ok () else return .error .deletingPolicy

def removeOwned (path name : Str) : Faulty System (Except ManagerError Unit) := do
  match ← unloadPolicy name with
  | .error error => return .error error
  | .ok () => if ← removeFile path then return .ok () else return .error .removingPolicyFile

/-- `removeProfile` leaves a profile of the host alone. -/
def removeProfile (profile : AppArmorProfile) (ownedByUs : Bool) : Faulty System (Except ManagerError Unit) := do
  if ← enterHost then
    if ← policyFileOwned (policyPath profile.name.value) (profile.policy.toOption.getD []) ownedByUs then
      removeOwned (policyPath profile.name.value) profile.name.value
    else return .ok ()
  else return .error .enteringHost

/-- `removeLegacyNodeStatus` returns the state of the status that it removed. -/
def removeLegacyNodeStatus (name : Str) : Faulty System (Option ProfileState) := do
  match (← Faulty.query (fun system => System.legacy system |>.lookup name)).join with
  | none => return none
  | some state => if ← Faulty.change (·.removeLegacy name) then return some state else return none

def AppArmorProfile.initialStatus (profile : AppArmorProfile) : ProfileState :=
  if profile.disabled then .disabled else if profile.isPartial then .isPartial else .pending

/-- The state that a new node status has, which may come from an earlier release. -/
def firstState (profile : AppArmorProfile) (legacyState : Option ProfileState) : ProfileState :=
  if profile.initialStatus = .pending then legacyState.getD .pending else profile.initialStatus

def createNodeStatus (profile : AppArmorProfile) (legacyState : Option ProfileState) : Faulty System Bool := do
  match ← readStatus profile.name.value with
  | none => return false
  | some (some existing) =>
    writeStatus profile.name.value { existing with state := some (firstState profile legacyState) }
  | some none =>
    if ← writeStatus profile.name.value ⟨none, false⟩ then
      writeStatus profile.name.value ⟨some (firstState profile legacyState), false⟩
    else return false

/-- The finalizer, the label and the status of the profile. -/
def createStatus (profile : AppArmorProfile) : Faulty System Bool := do
  if ← call then
    if ← call then createNodeStatus profile (← removeLegacyNodeStatus profile.name.value) else return false
  else return false

def setNodeStatus (name : Str) (state : ProfileState) : Faulty System Bool := do
  match ← readStatus name with
  | none => return false
  | some none => return state = .terminating
  | some (some status) =>
    if ← call then
      if status.state = some state then return true else writeStatus name { status with state := some state }
    else return false

def setAnnotation (name : Str) (installed : Bool) : Faulty System Bool := do
  match ← readStatus name with
  | some (some status) =>
    if status.installed = installed then return true else writeStatus name { status with installed := installed }
  | _ => return false

/-- The profile was installed by the operator, as its annotation has it. There is no answer if it cannot be read. -/
def getAnnotation (name : Str) : Faulty System (Option Bool) := do
  match ← readStatus name with
  | none => return none
  | some none => return some false
  | some (some status) => return some status.installed

def handleDeletion (profile : AppArmorProfile) : Faulty System Bool := do
  match ← getAnnotation profile.name.value with
  | none => return false
  | some installed =>
    match ← removeProfile profile installed with
    | .error _ => return false
    | .ok () => return true

/-- What is left to do for a profile that is being deleted once its status says so: the profile, its finalizer and
its status are removed. -/
def finishDeletion (profile : AppArmorProfile) : Faulty System Bool := do
  if profile.inUse then return true
  else if ← handleDeletion profile then
    if ← call then call else return false
  else return false

/-- `reconcileDeletion` removes a profile from the node after it has been marked as terminating. -/
def reconcileDeletion (profile : AppArmorProfile) : Faulty System Bool := do
  if profile.hasFinalizer then
    match ← readStatus profile.name.value with
    | none => return false
    | some none => finishDeletion profile
    | some (some status) =>
      if status.state = some .terminating then finishDeletion profile
      else setNodeStatus profile.name.value .terminating
  else return true

def reconcileDisabled (profile : AppArmorProfile) : Faulty System Bool := do
  match ← readStatus profile.name.value with
  | some (some status) =>
    if status.state = some .disabled || profile.inUse then return true
    else if ← handleDeletion profile then
      if ← setAnnotation profile.name.value false then setNodeStatus profile.name.value .disabled else return false
    else return false
  | _ => return false

def markInstalled (name : Str) : Faulty System Bool := do
  match ← readStatus name with
  | some (some status) => if status.state = some .installed then return true else setNodeStatus name .installed
  | _ => return false

def reconcileInstall (profile : AppArmorProfile) : Faulty System Bool := do
  match ← readStatus profile.name.value with
  | some (some status) =>
    match ← installProfile profile (status.state = some .installed) with
    | .error _ => return false
    | .ok _ =>
      if ← setAnnotation profile.name.value true then markInstalled profile.name.value else return false
  | _ => return false

/-- What is done for a profile that has a status on the node: a disabled one is removed, and a partial one is not
installed yet. -/
def reconcilePresent (profile : AppArmorProfile) : Faulty System Bool :=
  if profile.isPartial then return true
  else if profile.disabled then reconcileDisabled profile
  else reconcileInstall profile

/-- `reconcileAppArmorProfile` returns false after an error. -/
def reconcileAppArmorProfile (profile : AppArmorProfile) : Faulty System Bool := do
  if profile.deleting then reconcileDeletion profile
  else
    match ← readStatus profile.name.value with
    | none => return false
    | some none => createStatus profile
    | some (some _) =>
      if profile.hasFinalizer then
        if ← call then reconcilePresent profile else return false
      else createStatus profile

end SecurityProfiles.Host
