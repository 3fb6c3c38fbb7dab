import SecurityProfiles.Profiles.Name

namespace SecurityProfiles.Annotator

/-- The types of a profile in a security context, of which one stands for a profile on the node. -/
inductive ProfileType where
  | localhost
  | other
deriving DecidableEq

structure ContextProfile where
  type : ProfileType
  localhostProfile : Option Str
deriving DecidableEq

structure SecurityContext where
  seccompProfile : Option ContextProfile
  seLinuxType : Option Str
  appArmorProfile : Option ContextProfile
deriving DecidableEq

/-- A pod, with the security contexts of its containers. -/
structure Pod where
  uid : Nat
  securityContext : Option SecurityContext
  containers : List (Option SecurityContext)
  initContainers : List (Option SecurityContext)
  ephemeralContainers : List (Option SecurityContext)
  annotations : List (Str × Str)
deriving DecidableEq

namespace Pod

variable (pod : Pod)

def allContainers : List (Option SecurityContext) := pod.containers ++ pod.initContainers ++ pod.ephemeralContainers

/-- What the pod and its containers have in their security contexts, the pod first. -/
def contexts {α : Type} (read : SecurityContext → Option α) : List α :=
  (pod.securityContext :: pod.allContainers).filterMap fun securityContext => securityContext.bind read

end Pod

def ContextProfile.localhost? (profile : ContextProfile) : Option Str :=
  if profile.type = .localhost then profile.localhostProfile else none

/-- Operator profiles have paths of the form operator/name.json. -/
def isOperatorSeccompPath (path : Str) : Bool :=
  "operator/".toList.isPrefixOf path && ".json".toList.isSuffixOf path && (path.splitOn '/').length = 2

def isOperatorSeccompProfile (profile : ContextProfile) : Option Str :=
  profile.localhost?.filter isOperatorSeccompPath

def seccompPodKey : Str := "seccomp.security.alpha.kubernetes.io/pod".toList

def getSeccompProfilesFromPod (pod : Pod) : List Str :=
  let profiles := pod.contexts fun securityContext => securityContext.seccompProfile.bind isOperatorSeccompProfile
  let annotated := ((pod.annotations.lookup seccompPodKey).bind (Text.cutPrefix "localhost/".toList)).filter
    isOperatorSeccompPath
  (profiles ++ annotated.toList).eraseDups

/-- Types of the operator have the form name.process. -/
def isOperatorSelinuxType (type : Str) : Bool := (Text.cutSuffix ".process".toList type).any (· ≠ [])

def getSelinuxProfilesFromPod (pod : Pod) : List Str :=
  (pod.contexts fun securityContext => securityContext.seLinuxType.filter isOperatorSelinuxType).eraseDups

def appArmorKeyStart : Str := "container.apparmor.security.beta.kubernetes.io/".toList

def getAppArmorProfilesFromPod (pod : Pod) : List Str :=
  let profiles := pod.contexts fun securityContext => securityContext.appArmorProfile.bind ContextProfile.localhost?
  let annotated := pod.annotations.filterMap fun (key, value) =>
    if appArmorKeyStart.isPrefixOf key then Text.cutPrefix "localhost/".toList value else none
  Text.sort ((profiles ++ annotated).filter (· ≠ [])).eraseDups

inductive ProfileKind where
  | seccomp
  | selinux
  | rawSelinux
  | appArmor
deriving DecidableEq

def ProfileKind.references : ProfileKind → Pod → List Str
  | .seccomp => getSeccompProfilesFromPod
  | .selinux => getSelinuxProfilesFromPod
  | .rawSelinux => getSelinuxProfilesFromPod
  | .appArmor => getAppArmorProfilesFromPod

def hasProfile (pod : Pod) : Bool :=
  getSeccompProfilesFromPod pod ≠ [] || getSelinuxProfilesFromPod pod ≠ [] || getAppArmorProfilesFromPod pod ≠ []

end SecurityProfiles.Annotator
