import SecurityProfiles.AppArmor.Abstract
import SecurityProfiles.Library.FilePath
import SecurityProfiles.Library.SortedMap

namespace SecurityProfiles.Spod

inductive HostPathType where
  | directoryOrCreate
  | directory
  | fileOrCreate
  | file
  | socket
  | charDevice
  | blockDevice
deriving DecidableEq

structure HostPathVolumeSource where
  path : Str
  type : Option HostPathType
deriving DecidableEq

/-- A volume, with what it is instead of a path of the host. -/
structure Volume (Other : Type) where
  name : Str
  hostPath : Option HostPathVolumeSource
  source : Option Other
deriving DecidableEq

structure VolumeMount where
  name : Str
  mountPath : Str
  readOnly : Bool
deriving DecidableEq

structure Container (Other : Type) where
  args : List Str
  env : List Other
  volumeMounts : List VolumeMount
  others : Other
deriving DecidableEq

structure PodSpec (Affinity Toleration Other : Type) where
  initContainers : List (Container Other)
  containers : List (Container Other)
  volumes : List (Volume Other)
  priorityClassName : Str
  affinity : Option Affinity
  tolerations : List Toleration
  imagePullSecrets : List Str
  others : Other
deriving DecidableEq

structure PodTemplateSpec (Affinity Toleration Other : Type) where
  metadata : Other
  spec : PodSpec Affinity Toleration Other
deriving DecidableEq

structure DaemonSet (Affinity Toleration Other : Type) where
  annotations : SortedMap Str Str
  template : PodTemplateSpec Affinity Toleration Other
  others : Other

def kubeletDirBase : Str := "kubelet".toList

def systemTopLevelDirs : List Str :=
  ["bin", "boot", "dev", "etc", "lib", "lib32", "lib64", "libx32", "proc", "sbin", "sys", "usr"].map String.toList

def binaryDirs : List Str := ["bin", "sbin", "libexec"].map String.toList

inductive KubeletDirError where
  | notCleanAbsolute (dir : Str)
  | notKubelet (dir : Str)
  | belowSystemDir (dir top : Str)
  | forExecutables (dir : Str)
deriving DecidableEq

def validateKubeletDir (dir : Str) : Except KubeletDirError Unit :=
  if dir.head? ≠ some '/' ∨ FilePath.clean dir ≠ dir then .error (.notCleanAbsolute dir)
  else if FilePath.base dir ≠ kubeletDirBase then .error (.notKubelet dir)
  else
    let parts := ((Text.cutPrefix ['/'] dir).getD dir).splitOn '/'
    if 1 < parts.length ∧ parts.headI ∈ systemTopLevelDirs then .error (.belowSystemDir dir parts.headI)
    else if 1 < parts.length ∧ parts.dropLast.getLastI ∈ binaryDirs then .error (.forExecutables dir)
    else .ok ()

def kubeletDirNodeLabelKey : Str := "kubelet.kubernetes.io/directory-location".toList

/-- `kubeletDirFromNodeLabels` is the directory that the labels of a node name, if any. -/
def kubeletDirFromNodeLabels (labels : SortedMap Str Str) : Except KubeletDirError (Option Str) :=
  match labels.lookup kubeletDirNodeLabelKey with
  | none => .ok none
  | some kubeletDir =>
    let dir := '/' :: kubeletDir.map fun char => if char = '-' then '/' else char
    match validateKubeletDir dir with
    | .error error => .error error
    | .ok () => .ok (some dir)

structure Node where
  name : Str
  labels : SortedMap Str Str

/-- `addNodeDir` is one round of the loop over the nodes with the label. -/
def addNodeDir (defaultDir : Str) (dirs : List Str) (node : Node) : List Str :=
  match kubeletDirFromNodeLabels node.labels with
  -- The non-root enabler falls back to the default directory on such a node.
  | .error _ => dirs
  | .ok none => dirs
  | .ok (some dir) => if dir = defaultDir ∨ dir ∈ dirs then dirs else dirs ++ [dir]

/-- `nodeKubeletDirs` are the directories of the nodes other than the default one. -/
def nodeKubeletDirs (defaultDir : Str) (nodes : List Node) : List Str :=
  Text.sort (nodes.foldl (addNodeDir defaultDir) [])

variable {Affinity Toleration Other : Type}

def kubeletDirVolumeName : Str := "host-kubelet-dir-volume".toList

def seccompProfilesFolder : Str := "seccomp".toList

def hostRoot : Str := "/host".toList

def kubeletSeccompDir (dir : Str) : Str := FilePath.join [dir, seccompProfilesFolder]

def kubeletDirVolume (name dir : Str) : Volume Other × VolumeMount :=
  let seccompDir := kubeletSeccompDir dir
  (⟨name, some ⟨seccompDir, some .directoryOrCreate⟩, none⟩, ⟨name, FilePath.join [hostRoot, seccompDir], false⟩)

/-- `kubeletDirFromVolume` is the directory of a volume that `kubeletDirVolume` made. -/
def kubeletDirFromVolume (volume : Volume Other) : Option Str :=
  match volume.hostPath with
  | none => none
  | some hostPath =>
    if ¬ kubeletDirVolumeName <+: volume.name then none
    else
      match Text.cutSuffix ('/' :: seccompProfilesFolder) hostPath.path with
      | none => none
      | some dir => if dir = [] then none else some dir

/-- `addMountedDir` is one round of the loop over the volumes of a DaemonSet. -/
def addMountedDir (dirs : List Str) (volume : Volume Other) : List Str :=
  if ¬ kubeletDirVolumeName ++ ['-'] <+: volume.name then dirs
  else
    match kubeletDirFromVolume volume with
    | none => dirs
    | some dir => if dir ∈ dirs ∨ validateKubeletDir dir ≠ .ok () then dirs else dirs ++ [dir]

def mountedKubeletDirs (ds : DaemonSet Affinity Toleration Other) : List Str :=
  Text.sort (ds.template.spec.volumes.foldl addMountedDir [])

/-- `addKubeletDirVolumes` adds a volume for each directory and mounts it into the non-root enabler,
the first init container. Without one, the access to it panics. -/
def addKubeletDirVolumes (templateSpec : PodSpec Affinity Toleration Other) (dirs : List Str) :
    Option (PodSpec Affinity Toleration Other) :=
  match templateSpec.initContainers with
  | [] => none
  | nonRootEnabler :: others =>
    let added : List (Volume Other × VolumeMount) := dirs.mapIdx fun i dir =>
      kubeletDirVolume (kubeletDirVolumeName ++ ['-'] ++ Text.itoa (i + 1)) dir
    some { templateSpec with
      volumes := templateSpec.volumes ++ added.map (·.1)
      initContainers :=
        { nonRootEnabler with volumeMounts := nonRootEnabler.volumeMounts ++ added.map (·.2) } :: others }

/-- `containerListsDiffer` compares the containers at the same index, in lists of the same length. -/
def containerListsDiffer (configured found : List (Container Other)) : Bool :=
  (configured.zip found).any fun (configured, found) =>
    configured.args.length ≠ found.args.length ∨ configured.env.length ≠ found.env.length ∨
      configured.volumeMounts.length ≠ found.volumeMounts.length

def legacyAppArmorAnnotation : Str :=
  "container.seccomp.security.alpha.kubernetes.io/security-profiles-operator".toList

section needsUpdate

variable [DecidableEq Affinity] [DecidableEq Toleration]
  (deepDerivative : PodTemplateSpec Affinity Toleration Other → PodTemplateSpec Affinity Toleration Other → Bool)

def spodNeedsUpdate (configured found : DaemonSet Affinity Toleration Other) : Bool :=
  let cSpec := configured.template.spec
  let fSpec := found.template.spec
  cSpec.initContainers.length ≠ fSpec.initContainers.length ||
    cSpec.containers.length ≠ fSpec.containers.length ||
    cSpec.volumes.length ≠ fSpec.volumes.length ||
    containerListsDiffer cSpec.initContainers fSpec.initContainers ||
    containerListsDiffer cSpec.containers fSpec.containers ||
    cSpec.priorityClassName ≠ fSpec.priorityClassName ||
    cSpec.affinity ≠ fSpec.affinity ||
    cSpec.tolerations ≠ fSpec.tolerations ||
    cSpec.imagePullSecrets ≠ fSpec.imagePullSecrets ||
    (found.annotations.lookup legacyAppArmorAnnotation).getD [] ≠ [] ||
    !deepDerivative configured.template found.template

/-- `kubeletDirsToMount` are the directories to render and whether the SPOd needs an update with them. -/
def kubeletDirsToMount (configured found : DaemonSet Affinity Toleration Other) (nodeDirs : List Str) :
    Option (List Str × Bool) := do
  let dirs := Text.compact (Text.sort (mountedKubeletDirs found ++ nodeDirs))
  let retained ← addKubeletDirVolumes configured.template.spec dirs
  if !spodNeedsUpdate deepDerivative { configured with template.spec := retained } found then some (dirs, false)
  else some (nodeDirs, true)

end needsUpdate

/-- `handleUpdate` writes the template of the rendered DaemonSet into the found one, without the
annotation of earlier versions. -/
def handleUpdate (spod found : DaemonSet Affinity Toleration Other) : DaemonSet Affinity Toleration Other :=
  { found with template := spod.template, annotations := found.annotations.erase legacyAppArmorAnnotation }

end SecurityProfiles.Spod
