import SecurityProfiles.AppArmor.Abstract
import SecurityProfiles.Library.SortedMap

namespace SecurityProfiles.Binding

/-- The kinds of profiles that a binding may name. Others are skipped. -/
inductive ProfileBindingKind where
  | seccompProfile
  | selinuxProfile
  | appArmorProfile
  | unsupported (name : Str)
deriving DecidableEq

def ProfileBindingKind.text : ProfileBindingKind → Str
  | .seccompProfile => "SeccompProfile".toList
  | .selinuxProfile => "SelinuxProfile".toList
  | .appArmorProfile => "AppArmorProfile".toList
  | .unsupported name => name

structure LabelSelectorRequirement where
  key : Str
  operator : Str
  values : List Str
deriving DecidableEq

structure LabelSelector where
  matchLabels : List (Str × Str)
  matchExpressions : List LabelSelectorRequirement
deriving DecidableEq

abbrev Labels := List (Str × Str)

structure ProfileBinding where
  name : Str
  creationTimestamp : Nat
  kind : ProfileBindingKind
  profileName : Str
  image : Str
  podSelector : Option LabelSelector
deriving DecidableEq

def selectAllContainersImage : Str := ['*']

structure SeccompSetting where
  type : Str
  localhostProfile : Option Str
deriving DecidableEq

structure SELinuxOptions where
  user : Str
  role : Str
  type : Str
  level : Str
deriving DecidableEq

structure AppArmorSetting where
  type : Str
  localhostProfile : Option Str
deriving DecidableEq

/-- The fields of an object that profiles are not about, by their names and with their values as text. -/
abbrev OtherFields := List (Str × Str)

structure SecurityContext where
  seccompProfile : Option SeccompSetting
  selinuxOptions : Option SELinuxOptions
  appArmorProfile : Option AppArmorSetting
  others : OtherFields
deriving DecidableEq

def SecurityContext.empty : SecurityContext := ⟨none, none, none, []⟩

structure Container where
  name : Str
  image : Str
  securityContext : Option SecurityContext
  others : OtherFields
deriving DecidableEq

structure Pod where
  generateName : Str
  labels : Labels
  annotations : SortedMap Str Str
  isWindows : Bool
  securityContext : Option SecurityContext
  initContainers : List Container
  containers : List Container
  ephemeralContainers : List Container
  others : OtherFields
deriving DecidableEq

/-- A profile that was looked up, by the text that refers to it. -/
inductive BindProfile where
  | seccomp (localhostProfile : Str)
  | selinux (usage : Str)
  | appArmor (profileName : Str)
deriving DecidableEq

def BindProfile.kind : BindProfile → ProfileBindingKind
  | .seccomp _ => .seccompProfile
  | .selinux _ => .selinuxProfile
  | .appArmor _ => .appArmorProfile

def localhost : Str := "Localhost".toList

/-- `setSelinuxType` keeps the other options. -/
def setSelinuxType (options : Option SELinuxOptions) (usage : Str) : SELinuxOptions :=
  match options with
  | none => ⟨[], [], usage, []⟩
  | some options => { options with type := usage }

/-- The settings with those for the profile. -/
def setProfile (context : Option SecurityContext) (profile : BindProfile) : SecurityContext :=
  let context := context.getD .empty
  match profile with
  | .seccomp reference => { context with seccompProfile := some ⟨localhost, some reference⟩ }
  | .selinux usage => { context with selinuxOptions := some (setSelinuxType context.selinuxOptions usage) }
  | .appArmor name => { context with appArmorProfile := some ⟨localhost, some name⟩ }

/-- `addSecurityContext` sets the profile of a container, and tells whether it changed. -/
def addSecurityContext (container : Container) (profile : BindProfile) : Container × Bool :=
  let changed := some (setProfile container.securityContext profile)
  ({ container with securityContext := changed }, changed ≠ container.securityContext)

def addPodSecurityContext (pod : Pod) (profile : BindProfile) : Pod × Bool :=
  let changed := some (setProfile pod.securityContext profile)
  ({ pod with securityContext := changed }, changed ≠ pod.securityContext)

def hasContainerContext (container : Container) (profile : BindProfile) : Bool :=
  match container.securityContext, profile with
  | none, _ => false
  | some context, .seccomp _ => context.seccompProfile.isSome
  | some context, .selinux _ => context.selinuxOptions.isSome
  | some context, .appArmor _ => context.appArmorProfile.isSome

/-- What the API server answers to the lookup of a profile. -/
inductive Lookup where
  | installed (reference : Str)
  | withoutStatus
  | notFound
  | failed

inductive Outcome where
  | profile (profile : BindProfile)
  | skip
  | failed

/-- The cluster as one request sees it: which kinds are enabled, which profiles there are, and which pods a selector
is for. Selectors that are not valid have no answer. -/
structure Cluster where
  enabled : ProfileBindingKind → Option Bool
  lookup : ProfileBinding → Lookup
  selects : LabelSelector → Labels → Option Bool

section webhook

variable (cluster : Cluster)

def podMatchesSelector (pod : Pod) (binding : ProfileBinding) : Bool :=
  match binding.podSelector with
  | none => true
  | some selector => (cluster.selects selector pod.labels).getD false

/-- Seccomp cannot be disabled. -/
def profileKindEnabled (kind : ProfileBindingKind) : Option Bool :=
  match kind with
  | .selinuxProfile => cluster.enabled kind
  | .appArmorProfile => cluster.enabled kind
  | _ => some true

def lookupOutcome (enabled : Bool) (profile : Str → BindProfile) : Lookup → Outcome
  | .installed reference => .profile (profile reference)
  | .notFound => .skip
  | .withoutStatus => if enabled then .failed else .skip
  | .failed => .failed

/-- `getProfile` skips profiles that do not exist, and those of disabled kinds without a status. -/
def getProfile (binding : ProfileBinding) : Outcome :=
  match profileKindEnabled cluster binding.kind with
  | none => .failed
  | some enabled =>
    match binding.kind with
    | .seccompProfile => lookupOutcome enabled .seccomp (cluster.lookup binding)
    | .selinuxProfile => lookupOutcome enabled .selinux (cluster.lookup binding)
    | .appArmorProfile => lookupOutcome enabled .appArmor (cluster.lookup binding)
    | .unsupported _ => .skip

end webhook

/-- The older binding, by name if both are as old as each other. -/
def ProfileBinding.before (first second : ProfileBinding) : Prop :=
  first.creationTimestamp < second.creationTimestamp ∨
    first.creationTimestamp = second.creationTimestamp ∧ first.name ≤ second.name

instance : DecidableRel ProfileBinding.before := fun _ _ => inferInstanceAs (Decidable (_ ∨ _))

def sortBindings (bindings : List ProfileBinding) : List ProfileBinding :=
  bindings.insertionSort ProfileBinding.before

/-- The state of applying the bindings to the containers of a pod. -/
structure BindState where
  containers : List Container
  wildcards : ProfileBindingKind → Option (ProfileBinding × BindProfile)
  boundBy : ProfileBindingKind → Nat → Option ProfileBinding
  applied : List Str
  warnings : List Str
  podChanged : Bool

def newBindState (containers : List Container) : BindState where
  containers := containers
  wildcards := fun _ => none
  boundBy := fun _ _ => none
  applied := []
  warnings := []
  podChanged := false

/-- The text of the warning that an older binding won. Without a container it is about the pod. -/
def conflict (binding winner : ProfileBinding) (podName : Str) (container : Option Str) : Str :=
  let target :=
    match container with
    | none => "pod ".toList ++ podName
    | some container => "container ".toList ++ container ++ " of pod ".toList ++ podName
  "profile binding ".toList ++ binding.name ++ " was not applied to ".toList ++ target ++
    ", because the older binding ".toList ++ winner.name ++ " already binds ".toList ++ winner.kind.text ++ [' '] ++
    winner.profileName

def warn (podName : Str) (binding winner : ProfileBinding) (container : Option Str) (state : BindState) :
    BindState :=
  if winner.profileName = binding.profileName then state
  else { state with warnings := state.warnings ++ [conflict binding winner podName container] }

/-- Bind the profile to the container at the index, unless an older binding did. -/
def bindContainer (podName : Str) (binding : ProfileBinding) (profile : BindProfile) (state : BindState)
    (index : Nat) (container : Container) : BindState :=
  match state.boundBy binding.kind index with
  | some winner => warn podName binding winner (some container.name) state
  | none =>
    let (changed, podChanged) := addSecurityContext container profile
    { state with
      containers := state.containers.set index changed
      boundBy := Function.update state.boundBy binding.kind
        (Function.update (state.boundBy binding.kind) index (some binding))
      applied := state.applied ++ [binding.name]
      podChanged := state.podChanged || podChanged }

def bindImage (podName : Str) (binding : ProfileBinding) (profile : BindProfile) (state : BindState) (index : Nat) :
    BindState :=
  match state.containers[index]? with
  | none => state
  | some container =>
    if container.image = binding.image then bindContainer podName binding profile state index container else state

def applyBinding (podName : Str) (state : BindState) (binding : ProfileBinding) (profile : BindProfile) :
    BindState :=
  if binding.image = selectAllContainersImage then
    match state.wildcards binding.kind with
    | some winner => warn podName binding winner.1 none state
    | none => { state with wildcards := Function.update state.wildcards binding.kind (some (binding, profile)) }
  else (List.range state.containers.length).foldl (bindImage podName binding profile) state

/-- Apply the bindings in their order. A lookup that fails ends the request. -/
def applyBindings (cluster : Cluster) (pod : Pod) (podName : Str) :
    List ProfileBinding → BindState → Option BindState
  | [], state => some state
  | binding :: rest, state =>
    if podMatchesSelector cluster pod binding then
      match getProfile cluster binding with
      | .failed => none
      | .skip => applyBindings cluster pod podName rest state
      | .profile profile => applyBindings cluster pod podName rest (applyBinding podName state binding profile)
    else applyBindings cluster pod podName rest state

def bindRest (profile : BindProfile) (bound : Nat → Option ProfileBinding) (meant : Container → Bool)
    (containers : List Container) : List Container × Bool :=
  let changes := containers.zipIdx.map fun (container, index) =>
    if (bound index).isNone && meant container then addSecurityContext container profile else (container, false)
  (changes.map (·.1), changes.any (·.2))

/-- `applyWildcardProfile` sets the profile of the pod, and of the containers with a setting of their own. -/
def applyWildcardProfile (pod : Pod) (profile : BindProfile) (state : BindState) : Pod × BindState :=
  let (changedPod, podChanged) := addPodSecurityContext pod profile
  let (containers, changed) :=
    bindRest profile (state.boundBy profile.kind) (hasContainerContext · profile) state.containers
  (changedPod, { state with containers := containers, podChanged := state.podChanged || podChanged || changed })

/-- `applyWildcardProfileToContainers` leaves the pod as it is. -/
def applyWildcardProfileToContainers (pod : Pod) (profile : BindProfile) (state : BindState) : Pod × BindState :=
  let (containers, changed) := bindRest profile (state.boundBy profile.kind) (fun _ => true) state.containers
  (pod, { state with containers := containers, podChanged := state.podChanged || changed })

def applyWildcard (apply : Pod → BindProfile → BindState → Pod × BindState) (current : Pod × BindState)
    (kind : ProfileBindingKind) : Pod × BindState :=
  match current.2.wildcards kind with
  | none => current
  | some (binding, profile) =>
    apply current.1 profile { current.2 with applied := current.2.applied ++ [binding.name] }

def applyWildcards (apply : Pod → BindProfile → BindState → Pod × BindState) (kinds : List ProfileBindingKind)
    (pod : Pod) (state : BindState) : Pod × BindState :=
  kinds.foldl (applyWildcard apply) (pod, state)

def appliedBindings : Str := "spo.x-k8s.io/profile-bindings".toList

/-- `setAppliedBindings` replaces what the author of the pod wrote, and tells whether the pod changed. -/
def setAppliedBindings (pod : Pod) (applied : List Str) : Pod × Bool :=
  let existing := pod.annotations.lookup appliedBindings
  let names := Text.compact (Text.sort applied)
  if names = [] then ({ pod with annotations := pod.annotations.erase appliedBindings }, existing.isSome)
  else
    let value := [','].intercalate names
    ({ pod with annotations := pod.annotations.insert appliedBindings value }, existing ≠ some value)

inductive Request where
  | create
  | addEphemeral (oldPod : Pod)
  | other

inductive Response where
  | allowed
  | errored
  | patched (pod : Pod)

def isNew (oldPod : Pod) (container : Container) : Bool := container.name ∉ oldPod.ephemeralContainers.map (·.name)

/-- `newEphemeralContainers` are those that the old pod does not have. -/
def newEphemeralContainers (pod oldPod : Pod) : List Container := pod.ephemeralContainers.filter (isNew oldPod)

/-- Put the changed containers where the new ones were. -/
def putNew (oldPod : Pod) : List Container → List Container → List Container
  | [], _ => []
  | container :: rest, changed =>
    if isNew oldPod container then
      match changed with
      | [] => container :: rest
      | first :: others => first :: putNew oldPod rest others
    else container :: putNew oldPod rest changed

/-- `updatePod` binds the profiles at the creation of a pod, and when ephemeral containers are added. The wildcard
bindings come in the order of the kinds. -/
def updatePod (cluster : Cluster) (kinds : List ProfileBindingKind) (bindings : List ProfileBinding) (name : Str)
    (request : Request) (pod : Pod) : Response :=
  let podName := if name = [] then pod.generateName else name
  if pod.isWindows then .allowed
  else
    match request with
    | .other => .allowed
    | .create =>
      match applyBindings cluster pod podName (sortBindings bindings)
          (newBindState (pod.initContainers ++ pod.containers)) with
      | none => .errored
      | some state =>
        let (wildPod, state) := applyWildcards applyWildcardProfile kinds pod state
        let (boundPod, annotated) := setAppliedBindings wildPod state.applied
        if state.podChanged || annotated then
          .patched { boundPod with
            initContainers := state.containers.take pod.initContainers.length
            containers := state.containers.drop pod.initContainers.length }
        else .allowed
    | .addEphemeral oldPod =>
      match applyBindings cluster pod podName (sortBindings bindings)
          (newBindState (newEphemeralContainers pod oldPod)) with
      | none => .errored
      | some state =>
        let (wildPod, state) := applyWildcards applyWildcardProfileToContainers kinds pod state
        if state.podChanged then
          .patched { wildPod with ephemeralContainers := putNew oldPod pod.ephemeralContainers state.containers }
        else .allowed

/-- The pod that is admitted, if any. -/
def Response.admits (pod : Pod) : Response → Option Pod
  | .allowed => some pod
  | .errored => none
  | .patched changed => some changed

end SecurityProfiles.Binding
