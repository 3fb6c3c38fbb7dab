import SecurityProfiles.Spod.KubeletDirs
import SecurityProfiles.Library.Fallible
import SecurityProfiles.Library.Rollout
import Mathlib.Data.Finset.Sort

namespace SecurityProfiles.Spod

open List

variable {Affinity Toleration Other : Type}

theorem validateKubeletDir_ok {dir : Str} (valid : validateKubeletDir dir = .ok ()) :
    dir.head? = some '/' ∧ FilePath.clean dir = dir ∧ FilePath.base dir = kubeletDirBase := by
  unfold validateKubeletDir at valid
  split at valid
  · cases valid
  next clean =>
  split at valid
  · cases valid
  next kubelet =>
  obtain ⟨rooted, clean⟩ := not_or.mp clean
  exact ⟨not_not.mp rooted, not_not.mp clean, not_not.mp kubelet⟩

/-- The path of the volume of a directory gives the directory back. -/
theorem kubeletSeccompDir_valid {dir : Str} (valid : validateKubeletDir dir = .ok ()) :
    kubeletSeccompDir dir = dir ++ '/' :: seccompProfilesFolder := by
  obtain ⟨rooted, clean, kubelet⟩ := validateKubeletDir_ok valid
  have below : dir ≠ ['/'] := by
    rintro rfl
    exact absurd kubelet (by decide)
  have proper : FilePath.Proper seccompProfilesFolder := ⟨by decide, by decide, by decide, by decide⟩
  exact FilePath.join_clean rooted clean below proper

theorem kubeletDirFromNodeLabels_valid {labels : SortedMap Str Str} {dir : Str}
    (named : kubeletDirFromNodeLabels labels = .ok (some dir)) : validateKubeletDir dir = .ok () := by
  unfold kubeletDirFromNodeLabels at named
  split at named
  · cases named
  dsimp only at named
  split at named
  · cases named
  · next valid =>
      cases named
      exact valid

theorem nodeKubeletDirs_spec (defaultDir : Str) (nodes : List Node) :
    (nodeKubeletDirs defaultDir nodes).Pairwise (· < ·) ∧ ∀ dir, dir ∈ nodeKubeletDirs defaultDir nodes ↔
      ∃ node ∈ nodes, kubeletDirFromNodeLabels node.labels = .ok (some dir) ∧ dir ≠ defaultDir := by
  let find (node : Node) : Option Str :=
    (kubeletDirFromNodeLabels node.labels).toOption.join.filter (· ≠ defaultDir)
  have found : ∀ node dir, find node = some dir ↔ kubeletDirFromNodeLabels node.labels = .ok (some dir) ∧
      dir ≠ defaultDir := by
    intro node dir
    cases named : kubeletDirFromNodeLabels node.labels <;>
      simp [find, named, Except.toOption, Option.filter_eq_some_iff]
  have step : ∀ dirs node, addNodeDir defaultDir dirs node =
      (find node).elim dirs fun dir => if dir ∈ dirs then dirs else dirs ++ [dir] := by
    intro dirs node
    unfold addNodeDir
    cases named : kubeletDirFromNodeLabels node.labels with
    | error error => simp [find, named, Except.toOption]
    | ok dir =>
      cases dir with
      | none => simp [find, named, Except.toOption]
      | some dir =>
        by_cases isDefault : dir = defaultDir <;> simp [find, named, isDefault, Except.toOption, Option.filter]
  obtain ⟨nodup, members⟩ := Text.foldl_addNew step nodes [] .nil
  refine ⟨Text.pairwise_sort nodup, fun dir => ?_⟩
  rw [nodeKubeletDirs, Text.mem_sort, members]
  simp [found]

/-- The directories are those that the nodes name, as the rendering expects them, and the order of the nodes is not
seen. -/
theorem nodeKubeletDirs_exact (defaultDir : Str) (nodes : List Node) :
    (∀ dir, dir ∈ nodeKubeletDirs defaultDir nodes ↔
      ∃ node ∈ nodes, kubeletDirFromNodeLabels node.labels = .ok (some dir) ∧ dir ≠ defaultDir) ∧
    (nodeKubeletDirs defaultDir nodes).Pairwise (· < ·) ∧
    (∀ dir ∈ nodeKubeletDirs defaultDir nodes, validateKubeletDir dir = .ok ()) ∧
    ∀ nodes', (∀ node, node ∈ nodes ↔ node ∈ nodes') →
      nodeKubeletDirs defaultDir nodes' = nodeKubeletDirs defaultDir nodes := by
  obtain ⟨sorted, named⟩ := nodeKubeletDirs_spec defaultDir nodes
  refine ⟨named, sorted, fun dir member => ?_, fun nodes' same => ?_⟩
  · obtain ⟨node, -, isNamed, -⟩ := (named dir).mp member
    exact kubeletDirFromNodeLabels_valid isNamed
  · obtain ⟨sorted', named'⟩ := nodeKubeletDirs_spec defaultDir nodes'
    refine Text.eq_of_pairwise_lt sorted' sorted fun dir => ?_
    simp only [named, named', same]

section mounted

/-- A volume for a directory of some node, not for the default one. -/
def Volume.IsCustom (volume : Volume Other) : Prop := kubeletDirVolumeName ++ ['-'] <+: volume.name

/-- The DaemonSet has a volume for the directory. -/
def DaemonSet.Mounts (ds : DaemonSet Affinity Toleration Other) (dir : Str) : Prop :=
  ∃ volume ∈ ds.template.spec.volumes, volume.IsCustom ∧
    ∃ hostPath, volume.hostPath = some hostPath ∧ hostPath.path = dir ++ '/' :: seccompProfilesFolder

theorem kubeletDirFromVolume_eq_some {volume : Volume Other} (isCustom : volume.IsCustom) {dir : Str} :
    kubeletDirFromVolume volume = some dir ↔
      (∃ hostPath, volume.hostPath = some hostPath ∧ hostPath.path = dir ++ '/' :: seccompProfilesFolder) ∧
      dir ≠ [] := by
  have named : kubeletDirVolumeName <+: volume.name := (prefix_append _ _).trans isCustom
  unfold kubeletDirFromVolume
  cases volume.hostPath with
  | none => simp
  | some hostPath =>
    dsimp only
    rw [if_neg (not_not.mpr named)]
    cases cut : Text.cutSuffix ('/' :: seccompProfilesFolder) hostPath.path with
    | none =>
      have other : hostPath.path ≠ dir ++ '/' :: seccompProfilesFolder := by
        intro same
        rw [Text.cutSuffix_eq_some.mpr same] at cut
        cases cut
      simp [other]
    | some before =>
      have path := Text.cutSuffix_eq_some.mp cut
      have same : hostPath.path = dir ++ '/' :: seccompProfilesFolder ↔ before = dir := by
        rw [path]
        exact append_left_inj _
      dsimp only
      split
      · next empty =>
          simp only [reduceCtorEq, Option.some_inj, exists_eq_left', same, empty, false_iff, not_and, not_not]
          exact fun isEmpty => isEmpty.symm
      · next some' =>
          simp only [Option.some_inj, exists_eq_left', same]
          exact ⟨fun equal => ⟨equal, equal ▸ some'⟩, And.left⟩

/-- The mounted directories are read back from the volumes, sorted and without those that are not valid. -/
theorem mountedKubeletDirs_spec (ds : DaemonSet Affinity Toleration Other) :
    (mountedKubeletDirs ds).Pairwise (· < ·) ∧
      ∀ dir, dir ∈ mountedKubeletDirs ds ↔ ds.Mounts dir ∧ validateKubeletDir dir = .ok () := by
  let find (volume : Volume Other) : Option Str :=
    if kubeletDirVolumeName ++ ['-'] <+: volume.name then
      (kubeletDirFromVolume volume).filter fun dir => validateKubeletDir dir = .ok ()
    else none
  have step : ∀ dirs (volume : Volume Other), addMountedDir dirs volume =
      (find volume).elim dirs fun dir => if dir ∈ dirs then dirs else dirs ++ [dir] := by
    intro dirs volume
    unfold addMountedDir
    by_cases isCustom : kubeletDirVolumeName ++ ['-'] <+: volume.name
    · cases named : kubeletDirFromVolume volume with
      | none => simp [find, named]
      | some dir =>
        by_cases valid : validateKubeletDir dir = .ok () <;> simp [find, named, isCustom, valid, Option.filter]
    · simp [find, isCustom]
  obtain ⟨nodup, members⟩ := Text.foldl_addNew step ds.template.spec.volumes [] .nil
  refine ⟨Text.pairwise_sort nodup, fun dir => ?_⟩
  rw [mountedKubeletDirs, Text.mem_sort, members]
  constructor
  · rintro (none | ⟨volume, member, found⟩)
    · cases none
    dsimp only [find] at found
    split at found
    · next isCustom =>
        obtain ⟨named, valid⟩ := Option.filter_eq_some_iff.mp found
        obtain ⟨path, -⟩ := (kubeletDirFromVolume_eq_some isCustom).mp named
        exact ⟨⟨volume, member, isCustom, path⟩, of_decide_eq_true valid⟩
    · cases found
  · rintro ⟨⟨volume, member, isCustom, path⟩, valid⟩
    have some' : dir ≠ [] := by
      rintro rfl
      cases (validateKubeletDir_ok valid).1
    refine Or.inr ⟨volume, member, ?_⟩
    dsimp only [find]
    rw [Volume.IsCustom] at isCustom
    rw [if_pos isCustom, Option.filter_eq_some_iff]
    exact ⟨(kubeletDirFromVolume_eq_some isCustom).mpr ⟨path, some'⟩, decide_eq_true valid⟩

end mounted

/-- What is assumed of the comparison of the templates. Volumes of the same number agree in what the
first one sets. -/
structure Derivative
    (deepDerivative : PodTemplateSpec Affinity Toleration Other →
      PodTemplateSpec Affinity Toleration Other → Bool) : Prop where
  refl : ∀ template, deepDerivative template template = true
  volumes : ∀ configured found, deepDerivative configured found = true →
    configured.spec.volumes.length = found.spec.volumes.length →
    List.Forall₂ (fun configured found : Volume Other => configured.name = found.name ∧
      ∀ hostPath, configured.hostPath = some hostPath → ∃ other, found.hostPath = some other ∧
      other.path = hostPath.path)
      configured.spec.volumes found.spec.volumes

/-- The SPOd as it is rendered before the directories are added. Its init containers start with the
non-root enabler. -/
structure ConfiguredSPOd (Affinity Toleration Other : Type) extends DaemonSet Affinity Toleration Other where
  nonRootEnabler : template.spec.initContainers ≠ []
  plain : ∀ volume ∈ template.spec.volumes, ¬ volume.IsCustom

namespace ConfiguredSPOd

variable (configured : ConfiguredSPOd Affinity Toleration Other)

theorem addKubeletDirVolumes_isSome (dirs : List Str) :
    (addKubeletDirVolumes configured.template.spec dirs).isSome = true := by
  unfold addKubeletDirVolumes
  split
  · next none => exact absurd none configured.nonRootEnabler
  · rfl

/-- The SPOd with volumes for the directories. -/
def rendered (dirs : List Str) : DaemonSet Affinity Toleration Other :=
  { configured.toDaemonSet with
    template.spec :=
      (addKubeletDirVolumes configured.template.spec dirs).get (configured.addKubeletDirVolumes_isSome dirs) }

theorem addKubeletDirVolumes_eq (dirs : List Str) :
    addKubeletDirVolumes configured.template.spec dirs = some (configured.rendered dirs).template.spec :=
  (Option.some_get _).symm

theorem mem_volumes_rendered {dirs : List Str} {volume : Volume Other} :
    volume ∈ (configured.rendered dirs).template.spec.volumes ↔ volume ∈ configured.template.spec.volumes ∨
      ∃ i, ∃ bound : i < dirs.length,
        volume = (kubeletDirVolume (kubeletDirVolumeName ++ ['-'] ++ Text.itoa (i + 1)) dirs[i]).1 := by
  have added := configured.addKubeletDirVolumes_eq dirs
  unfold addKubeletDirVolumes at added
  split at added
  · cases added
  · have volumes := congrArg PodSpec.volumes (Option.some.inj added)
    rw [← volumes, mem_append, mem_map]
    refine or_congr_right ⟨?_, ?_⟩
    · rintro ⟨pair, member, rfl⟩
      obtain ⟨i, bound, rfl⟩ := mem_mapIdx.mp member
      exact ⟨i, bound, rfl⟩
    · rintro ⟨i, bound, rfl⟩
      exact ⟨_, mem_mapIdx.mpr ⟨i, bound, rfl⟩, rfl⟩

/-- A DaemonSet whose volumes agree with the rendered ones in name and path mounts exactly the rendered
directories. -/
theorem mounts_iff {dirs : List Str} (valid : ∀ dir ∈ dirs, validateKubeletDir dir = .ok ())
    {found : DaemonSet Affinity Toleration Other}
    (same : List.Forall₂ (fun configured found : Volume Other => configured.name = found.name ∧
      ∀ hostPath, configured.hostPath = some hostPath → ∃ other, found.hostPath = some other ∧
      other.path = hostPath.path) (configured.rendered dirs).template.spec.volumes found.template.spec.volumes)
    (dir : Str) : found.Mounts dir ↔ dir ∈ dirs := by
  obtain ⟨inFound, inRendered⟩ := Fallible.forall₂_mem same
  constructor
  · rintro ⟨volume, member, isCustom, hostPath, isPath, path⟩
    obtain ⟨partner, memberPartner, name, paths⟩ := inRendered volume member
    have partnerCustom : partner.IsCustom := by
      rw [Volume.IsCustom, name]
      exact isCustom
    rcases configured.mem_volumes_rendered.mp memberPartner with plain | ⟨i, bound, rfl⟩
    · exact absurd partnerCustom (configured.plain partner plain)
    obtain ⟨other, isOther, otherPath⟩ := paths _ rfl
    dsimp only at otherPath
    have member : dirs[i] ∈ dirs := getElem_mem bound
    have shape : dir ++ '/' :: seccompProfilesFolder = dirs[i] ++ '/' :: seccompProfilesFolder := by
      rw [← path, ← kubeletSeccompDir_valid (valid _ member), ← otherPath]
      exact congrArg HostPathVolumeSource.path (Option.some.inj (isPath.symm.trans isOther))
    rw [append_cancel_right shape]
    exact member
  · intro member
    obtain ⟨i, bound, rfl⟩ := getElem_of_mem member
    obtain ⟨volume, memberVolume, name, paths⟩ :=
      inFound _ (configured.mem_volumes_rendered.mpr (Or.inr ⟨i, bound, rfl⟩))
    obtain ⟨other, isOther, otherPath⟩ := paths _ rfl
    refine ⟨volume, memberVolume, ?_, other, isOther, ?_⟩
    · rw [Volume.IsCustom, ← name]
      exact prefix_append _ _
    · rw [otherPath]
      exact kubeletSeccompDir_valid (valid _ member)

end ConfiguredSPOd

theorem sort_pairwise (dirs : Finset Str) : (dirs.sort (· ≤ ·)).Pairwise (· < ·) :=
  (dirs.sortedLT_sort).pairwise

theorem sort_toFinset {dirs : List Str} (sorted : dirs.Pairwise (· < ·)) : dirs.toFinset.sort (· ≤ ·) = dirs :=
  (toFinset_sort (· ≤ ·) (sorted.imp ne_of_lt)).mpr (sorted.imp le_of_lt)

section needsUpdate

variable [DecidableEq Affinity] [DecidableEq Toleration]
  {deepDerivative : PodTemplateSpec Affinity Toleration Other → PodTemplateSpec Affinity Toleration Other → Bool}
  (derivative : Derivative deepDerivative)

theorem volumes_of_current {configured found : DaemonSet Affinity Toleration Other}
    (current : spodNeedsUpdate deepDerivative configured found = false) :
    configured.template.spec.volumes.length = found.template.spec.volumes.length ∧
      deepDerivative configured.template found.template = true := by
  simp only [spodNeedsUpdate, Bool.or_eq_false_iff, decide_eq_false_iff_not, not_not, Bool.not_eq_false'] at current
  exact ⟨current.1.1.1.1.1.1.1.1.2, current.2⟩

include derivative

theorem handleUpdate_current (spod found : DaemonSet Affinity Toleration Other) :
    spodNeedsUpdate deepDerivative spod (handleUpdate spod found) = false := by
  have containers : ∀ containers : List (Container Other), containerListsDiffer containers containers = false := by
    intro containers
    simp only [containerListsDiffer, any_eq_false, Prod.forall]
    intro first second member
    have equal : first = second := by
      obtain ⟨i, bound, pair⟩ := getElem_of_mem member
      rw [getElem_zip] at pair
      cases pair
      rfl
    simp [equal]
  have annotation : ((handleUpdate spod found).annotations.lookup legacyAppArmorAnnotation).getD [] = [] := by
    rw [handleUpdate, SortedMap.lookup_erase_self]
    rfl
  have template : (handleUpdate spod found).template = spod.template := rfl
  simp only [spodNeedsUpdate, annotation, template, containers, derivative.refl, ne_eq,
    not_true_eq_false, decide_false, Bool.or_self, Bool.not_true]

theorem volumes_of_rendered {configured : ConfiguredSPOd Affinity Toleration Other} {dirs : List Str}
    (valid : ∀ dir ∈ dirs, validateKubeletDir dir = .ok ()) {found : DaemonSet Affinity Toleration Other}
    (current : spodNeedsUpdate deepDerivative (configured.rendered dirs) found = false) (dir : Str) :
    found.Mounts dir ↔ dir ∈ dirs := by
  obtain ⟨length, derives⟩ := volumes_of_current current
  exact configured.mounts_iff valid (derivative.volumes _ _ derives length) dir

/-- The directories of the SPOd as items of a rollout. -/
def rollout : Rollout (ConfiguredSPOd Affinity Toleration Other) Str (DaemonSet Affinity Toleration Other)
    (DaemonSet Affinity Toleration Other) where
  Allowed dir := validateKubeletDir dir = .ok ()
  render configured dirs := configured.rendered (dirs.sort (· ≤ ·))
  differs := spodNeedsUpdate deepDerivative
  deploy := handleUpdate
  present ds := (mountedKubeletDirs ds).toFinset
  allowed_present ds dir member := (((mountedKubeletDirs_spec ds).2 dir).mp (mem_toFinset.mp member)).2
  present_of_same configured dirs found allowed current := by
    ext dir
    have valid : ∀ dir ∈ dirs.sort (· ≤ ·), validateKubeletDir dir = .ok () := fun dir member =>
      allowed dir ((Finset.mem_sort _).mp member)
    rw [mem_toFinset, (mountedKubeletDirs_spec found).2, volumes_of_rendered derivative valid current,
      Finset.mem_sort]
    exact ⟨And.left, fun member => ⟨member, allowed dir member⟩⟩
  same_deploy := handleUpdate_current derivative

/-- The code plans as the rollout does, with the directories in ascending order. -/
theorem kubeletDirsToMount_eq (configured : ConfiguredSPOd Affinity Toleration Other)
    (found : DaemonSet Affinity Toleration Other) {nodeDirs : List Str} (sorted : nodeDirs.Pairwise (· < ·)) :
    kubeletDirsToMount deepDerivative configured.toDaemonSet found nodeDirs =
      some (((rollout derivative).plan configured nodeDirs.toFinset found).1.sort (· ≤ ·),
        ((rollout derivative).plan configured nodeDirs.toFinset found).2) := by
  have retained : ((mountedKubeletDirs found).toFinset ∪ nodeDirs.toFinset).sort (· ≤ ·) =
      Text.compact (Text.sort (mountedKubeletDirs found ++ nodeDirs)) := by
    rw [← toFinset_append]
    refine Text.eq_of_pairwise_lt (sort_pairwise _) (Text.pairwise_compact_sort _) fun dir => ?_
    rw [Finset.mem_sort, mem_toFinset, Text.mem_compact_sort]
  have plan : (rollout derivative).plan configured nodeDirs.toFinset found =
      if spodNeedsUpdate deepDerivative
          (configured.rendered (Text.compact (Text.sort (mountedKubeletDirs found ++ nodeDirs)))) found then
        (nodeDirs.toFinset, true)
      else ((mountedKubeletDirs found).toFinset ∪ nodeDirs.toFinset, false) := by
    rw [← retained]
    rfl
  unfold kubeletDirsToMount
  dsimp only
  rw [configured.addKubeletDirVolumes_eq, plan]
  change (if (!spodNeedsUpdate deepDerivative (configured.rendered _) found) = true then _ else _) = _
  cases differs : spodNeedsUpdate deepDerivative
      (configured.rendered (Text.compact (Text.sort (mountedKubeletDirs found ++ nodeDirs)))) found with
  | false => exact congrArg (fun dirs => some (dirs, false)) retained.symm
  | true => exact congrArg (fun dirs => some (dirs, true)) (sort_toFinset sorted).symm

variable (configured : ConfiguredSPOd Affinity Toleration Other) (found : DaemonSet Affinity Toleration Other)
  {nodeDirs : List Str} (sorted : nodeDirs.Pairwise (· < ·))
  (valid : ∀ dir ∈ nodeDirs, validateKubeletDir dir = .ok ())

include sorted valid

/-- The directories of the nodes settle. They are all rendered; a DaemonSet that needs no update mounts what is
rendered and nothing else; an update changes the DaemonSet; and after it nothing is left to do. -/
theorem kubeletDirs_settle : ∃ dirs needsUpdate,
    kubeletDirsToMount deepDerivative configured.toDaemonSet found nodeDirs = some (dirs, needsUpdate) ∧
    nodeDirs ⊆ dirs ∧
    (needsUpdate = false → mountedKubeletDirs found = dirs ∧ ∀ dir, found.Mounts dir ↔ dir ∈ dirs) ∧
    (needsUpdate = true → spodNeedsUpdate deepDerivative (configured.rendered dirs) found = true) ∧
    kubeletDirsToMount deepDerivative configured.toDaemonSet (handleUpdate (configured.rendered dirs) found)
      nodeDirs =
      some (dirs, false) := by
  have allowed : ∀ dir ∈ nodeDirs.toFinset, (rollout derivative).Allowed dir := fun dir member =>
    valid dir (mem_toFinset.mp member)
  refine ⟨_, _, kubeletDirsToMount_eq derivative configured found sorted, ?_, ?_, ?_, ?_⟩
  · intro dir member
    rw [Finset.mem_sort]
    exact (rollout derivative).needed_subset_plan configured nodeDirs.toFinset found (mem_toFinset.mpr member)
  · intro unchanged
    have validDirs : ∀ dir ∈ ((rollout derivative).plan configured nodeDirs.toFinset found).1.sort (· ≤ ·),
        validateKubeletDir dir = .ok () := fun dir member =>
      (rollout derivative).allowed_plan configured found allowed dir ((Finset.mem_sort _).mp member)
    have current := (rollout derivative).same_of_unchanged configured nodeDirs.toFinset found unchanged
    refine ⟨?_, volumes_of_rendered derivative validDirs current⟩
    rw [← (rollout derivative).present_eq_plan configured found allowed unchanged]
    exact (sort_toFinset (mountedKubeletDirs_spec found).1).symm
  · exact (rollout derivative).differs_of_changed configured found allowed
  · -- The update is the round that deploys in any case.
    have deployed : (rollout derivative).round ⟨configured, nodeDirs.toFinset, true⟩ found = handleUpdate
        (configured.rendered (((rollout derivative).plan configured nodeDirs.toFinset found).1.sort (· ≤ ·)))
          found := by
      rw [Rollout.round]
      dsimp only
      rw [Bool.or_true, if_pos rfl]
      rfl
    have settled : (rollout derivative).plan configured nodeDirs.toFinset
        ((rollout derivative).round ⟨configured, nodeDirs.toFinset, true⟩ found) =
          (((rollout derivative).plan configured nodeDirs.toFinset found).1, false) :=
      (rollout derivative).plan_round ⟨configured, nodeDirs.toFinset, true⟩ found allowed
    rw [← deployed, kubeletDirsToMount_eq derivative configured _ sorted, settled]

end needsUpdate

section mnt

/-- The SPOd with its non-root enabler and no volumes. -/
def bare : ConfiguredSPOd Unit Unit Unit where
  annotations := .empty
  template := ⟨(), [⟨[], [], [], ()⟩], [], [], [], none, [], [], ()⟩
  others := ()
  nonRootEnabler := cons_ne_nil _ _
  plain := fun _ member => nomatch member

def deepEqual (configured found : PodTemplateSpec Unit Unit Unit) : Bool := decide (configured = found)

theorem derivesEqual : Derivative deepEqual where
  refl _ := decide_eq_true rfl
  volumes configured found equal _ := by
    rw [of_decide_eq_true equal]
    refine List.forall₂_same.mpr fun volume _ => ⟨rfl, fun hostPath isPath => ⟨hostPath, isPath, rfl⟩⟩

def mntDir : Str := "/mnt/kubelet".toList
def optDir : Str := "/opt/kubelet".toList
def srvDir : Str := "/srv/kubelet".toList

def optMounted : DaemonSet Unit Unit Unit := bare.rendered [mntDir, optDir]

/-- The node with its kubelet below `/opt` has left. Its directory stays mounted as long as nothing else changes,
and goes with the update for a node that has its kubelet below `/srv`. -/
theorem mnt_settles :
    kubeletDirsToMount deepEqual bare.toDaemonSet optMounted [mntDir] = some ([mntDir, optDir], false) ∧
    (∀ dir, optMounted.Mounts dir ↔ dir ∈ [mntDir, optDir]) ∧
    kubeletDirsToMount deepEqual bare.toDaemonSet optMounted [mntDir, srvDir] = some ([mntDir, srvDir], true) ∧
    kubeletDirsToMount deepEqual bare.toDaemonSet (handleUpdate (bare.rendered [mntDir, srvDir]) optMounted)
      [mntDir, srvDir] = some ([mntDir, srvDir], false) := by
  have kept : kubeletDirsToMount deepEqual bare.toDaemonSet optMounted [mntDir] =
      some ([mntDir, optDir], false) := by decide
  have updated : kubeletDirsToMount deepEqual bare.toDaemonSet optMounted [mntDir, srvDir] =
      some ([mntDir, srvDir], true) := by decide
  obtain ⟨dirs, needsUpdate, returned, -, current, -⟩ :=
    kubeletDirs_settle derivesEqual bare optMounted (pairwise_singleton (· < ·) mntDir) (by decide)
  cases kept.symm.trans returned
  obtain ⟨dirs, needsUpdate, returned, -, -, -, settled⟩ :=
    kubeletDirs_settle derivesEqual bare optMounted (pairwise_pair.mpr (by decide : mntDir < srvDir)) (by decide)
  cases updated.symm.trans returned
  exact ⟨kept, (current rfl).2, updated, settled⟩

end mnt

end SecurityProfiles.Spod
