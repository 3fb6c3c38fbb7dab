import SecurityProfiles.Binding.Frame

namespace SecurityProfiles.Binding

open List

theorem find?_oldest {found : List Found} (sorted : found.Pairwise fun first second => first.1.before second.1)
    {wanted : Found → Bool} {winner : Found} (wins : found.find? wanted = some winner) {other : Found}
    (member : other ∈ found) (isWanted : wanted other = true) : winner.1.before other.1 := by
  induction found with
  | nil => cases member
  | cons first rest ih =>
    obtain ⟨below, sortedRest⟩ := pairwise_cons.mp sorted
    rw [find?_cons] at wins
    split at wins
    · obtain rfl := Option.some.inj wins
      rcases mem_cons.mp member with rfl | later
      · exact before_refl _
      · exact below other later
    · next unwanted =>
        rcases mem_cons.mp member with rfl | later
        · rw [isWanted] at unwanted
          cases unwanted
        · exact ih sortedRest wins later

/-- The binding is one for containers with the image, and the profile is the one it names. -/
structure Cluster.Binds (cluster : Cluster) (pod : Pod) (bindings : List ProfileBinding) (kind : ProfileBindingKind)
    (image : Str) (binding : ProfileBinding) (profile : BindProfile) : Prop where
  listed : binding ∈ bindings
  selects : podMatchesSelector cluster pod binding = true
  kind : binding.kind = kind
  image : binding.image = image
  found : getProfile cluster binding = .profile profile

/-- The oldest of the bindings, by name if several are as old as each other. -/
def Oldest (binds : ProfileBinding → BindProfile → Prop) (binding : ProfileBinding) (profile : BindProfile) :
    Prop :=
  binds binding profile ∧ ∀ other otherProfile, binds other otherProfile → binding.before other

/-- What the bindings make of the setting in effect: that of the oldest binding for the image, or else of the oldest
wildcard binding, or else what it was before. -/
def Enforces (cluster : Cluster) (pod : Pod) (bindings : List ProfileBinding) (kind : ProfileBindingKind)
    (image : Str) (before after : Option Setting) : Prop :=
  (∃ binding profile, Oldest (cluster.Binds pod bindings kind image) binding profile ∧ profile.IsSet after) ∨
  ((∀ binding profile, ¬cluster.Binds pod bindings kind image binding profile) ∧
    ∃ binding profile, Oldest (cluster.Binds pod bindings kind selectAllContainersImage) binding profile ∧
      profile.IsSet after) ∨
  (∀ binding profile, ¬cluster.Binds pod bindings kind image binding profile) ∧
    (∀ binding profile, ¬cluster.Binds pod bindings kind selectAllContainersImage binding profile) ∧ after = before

/-- The setting that holds for a container. -/
def inEffect (pod : Pod) (container : Container) (kind : ProfileBindingKind) : Option Setting :=
  (container.setting kind).or (pod.setting kind)

/-- The binding won for one of the containers, or as the wildcard binding of its kind. -/
def Won (cluster : Cluster) (pod : Pod) (bindings : List ProfileBinding) (name : Str) : Prop :=
  ∃ binding profile kind, binding.name = name ∧
    ((∃ container ∈ pod.initContainers ++ pod.containers,
        Oldest (cluster.Binds pod bindings kind container.image) binding profile) ∨
      Oldest (cluster.Binds pod bindings kind selectAllContainersImage) binding profile)

section winners

variable {cluster : Cluster} {pod : Pod} {bindings : List ProfileBinding} {kind : ProfileBindingKind} {image : Str}
  {binding : ProfileBinding} {profile : BindProfile}

theorem eligible_sorted : (eligible cluster pod (sortBindings bindings)).Pairwise fun first second =>
    first.1.before second.1 := by
  refine List.Pairwise.filterMap _ ?_ (sortBindings_sorted bindings)
  intro first second before found foundFirst other foundSecond
  have same : ∀ {binding : ProfileBinding} {found : Found}, eligible cluster pod [binding] = [found] →
      found.1 = binding := by
    intro binding found here
    exact mem_singleton.mp (mem_eligible.mp (here ▸ mem_singleton_self found)).1
  rw [same (filterMap_cons_some foundFirst), same (filterMap_cons_some foundSecond)]
  exact before

theorem binds_iff : cluster.Binds pod bindings kind image binding profile ↔
    (binding, profile) ∈ eligible cluster pod (sortBindings bindings) ∧ binding.kind = kind ∧
      binding.image = image := by
  rw [mem_eligible, mem_sortBindings]
  constructor
  · rintro ⟨listed, selects, ofKind, ofImage, outcome⟩
    exact ⟨⟨listed, selects, outcome⟩, ofKind, ofImage⟩
  · rintro ⟨⟨listed, selects, outcome⟩, ofKind, ofImage⟩
    exact ⟨listed, selects, ofKind, ofImage, outcome⟩

/-- The first binding in the order of the webhook is the oldest one. -/
theorem oldest_of_find {found : Found} (wins : (eligible cluster pod (sortBindings bindings)).find? (fun found =>
    found.1.kind = kind && found.1.image = image) = some found) :
    Oldest (cluster.Binds pod bindings kind image) found.1 found.2 := by
  have member := mem_of_find?_eq_some wins
  have isWanted := find?_some wins
  simp only [Bool.and_eq_true, decide_eq_true_eq] at isWanted
  refine ⟨binds_iff.mpr ⟨member, isWanted⟩, fun other otherProfile binds => ?_⟩
  obtain ⟨otherMember, ofKind, ofImage⟩ := binds_iff.mp binds
  exact find?_oldest eligible_sorted wins otherMember (by simp [ofKind, ofImage])

theorem not_binds_of_find (none : (eligible cluster pod (sortBindings bindings)).find? (fun found =>
    found.1.kind = kind && found.1.image = image) = none) (binding : ProfileBinding) (profile : BindProfile) :
    ¬cluster.Binds pod bindings kind image binding profile := by
  intro binds
  obtain ⟨member, ofKind, ofImage⟩ := binds_iff.mp binds
  have unwanted := find?_eq_none.mp none _ member
  simp [ofKind, ofImage] at unwanted

theorem imageWinner_eq (specific : image ≠ selectAllContainersImage) (found : List Found) :
    imageWinner found kind image = found.find? fun found => found.1.kind = kind && found.1.image = image := by
  simp [imageWinner, specific]

end winners

/-- The container was changed as the bindings ask for. -/
structure Treated (cluster : Cluster) (bindings : List ProfileBinding) (pod after : Pod)
    (container changed : Container) : Prop where
  name : changed.name = container.name
  enforces : ∀ kind, Enforces cluster pod bindings kind container.image (inEffect pod container kind)
    (inEffect after changed kind)

section treated

variable {cluster : Cluster} {bindings : List ProfileBinding} {pod after : Pod} {container : Container}
  {kind : ProfileBindingKind}

theorem inEffect_own {profile : BindProfile} {pod : Pod} {container : Container} {kind : ProfileBindingKind}
    (isSet : profile.IsSet (container.setting kind)) : profile.IsSet (inEffect pod container kind) := by
  obtain ⟨value, some'⟩ := isSet.isSome
  rw [inEffect, some', Option.some_or, ← some']
  exact isSet

theorem oldest_of_imageWinner {image : Str} {winner : Found}
    (wins : imageWinner (eligible cluster pod (sortBindings bindings)) kind image = some winner) :
    Oldest (cluster.Binds pod bindings kind image) winner.1 winner.2 := by
  have isWanted := find?_some wins
  simp only [Bool.and_eq_true, decide_eq_true_eq] at isWanted
  exact oldest_of_find (imageWinner_eq isWanted.2 _ ▸ wins)

/-- The settings of the pod on its creation, or when ephemeral containers are added. -/
def podContext (whole : Bool) (found : List Found) (pod : Pod) : Option SecurityContext :=
  setAll (podPlan whole (wildcardWinner found)) pod.securityContext

theorem inEffect_wildcard {whole : Bool} {found : List Found} (kinded : KindedFound found)
    (context : after.securityContext = podContext whole found pod)
    (image : imageWinner found kind container.image = none) {winner : Found}
    (wins : wildcardWinner found kind = some winner) :
    winner.2.IsSet (inEffect after (bindOne whole found container) kind) := by
  have kinds := @kinded_profileFor whole found container kinded
  by_cases meant : (!whole || (container.setting kind).isSome) = true
  · have planned : profileFor whole found container kind = some winner.2 := by
      rw [profileFor, planFor, image, if_pos meant, wins]
      rfl
    exact inEffect_own (settingOf_setAll_set kinds planned)
  · have planned : profileFor whole found container kind = none := by
      rw [profileFor, planFor, image, if_neg meant]
      rfl
    have same : (bindOne whole found container).setting kind = container.setting kind :=
      settingOf_setAll_free kinds planned
    simp only [Bool.or_eq_true, Bool.not_eq_true', not_or, Bool.not_eq_false, Bool.not_eq_true,
      Option.isSome_eq_false_iff, Option.isNone_iff_eq_none] at meant
    obtain ⟨rfl, without⟩ := meant
    rw [inEffect, same, without, Option.none_or, Pod.setting, context]
    exact settingOf_setAll_set (kinded_podProfile kinded) (Option.map_eq_some_iff.mpr ⟨winner, wins, rfl⟩)

/-- A container gets what the oldest binding for its image says, then what the oldest wildcard binding says, unless
it has a setting of its own. -/
theorem treated_bindOne (whole : Bool)
    (context : after.securityContext = podContext whole (eligible cluster pod (sortBindings bindings)) pod) :
    Treated cluster bindings pod after container
      (bindOne whole (eligible cluster pod (sortBindings bindings)) container) := by
  have kinded := @kindedFound_eligible cluster (sortBindings bindings) pod
  have kinds := @kinded_profileFor whole _ container kinded
  refine ⟨rfl, fun kind => ?_⟩
  cases image : imageWinner (eligible cluster pod (sortBindings bindings)) kind container.image with
  | some winner =>
    have planned : profileFor whole (eligible cluster pod (sortBindings bindings)) container kind =
        some winner.2 := by
      rw [profileFor, planFor, image]
      rfl
    exact Or.inl ⟨winner.1, winner.2, oldest_of_imageWinner image,
      inEffect_own (settingOf_setAll_set kinds planned)⟩
  | none =>
    cases wins : wildcardWinner (eligible cluster pod (sortBindings bindings)) kind with
    | some winner =>
      have isSet := inEffect_wildcard kinded context image wins
      by_cases specific : container.image = selectAllContainersImage
      · exact Or.inl ⟨winner.1, winner.2, specific ▸ oldest_of_find wins, isSet⟩
      · exact Or.inr (Or.inl ⟨not_binds_of_find (imageWinner_eq specific _ ▸ image), winner.1, winner.2,
          oldest_of_find wins, isSet⟩)
    | none =>
      have noWildcard := not_binds_of_find wins
      refine Or.inr (Or.inr ⟨?_, noWildcard, ?_⟩)
      · by_cases specific : container.image = selectAllContainersImage
        · rw [specific]
          exact noWildcard
        · exact not_binds_of_find (imageWinner_eq specific _ ▸ image)
      · have planned : profileFor whole (eligible cluster pod (sortBindings bindings)) container kind = none := by
          rw [profileFor, planFor, image, wins, ite_self]
          rfl
        have same := @settingOf_setAll_free container.securityContext kind _ kinds planned
        have samePod := @settingOf_setAll_free pod.securityContext kind (podPlan whole (wildcardWinner _))
          (kinded_podPlan fun _ _ => wildcardWinner_profile kinded) (by simp [podPlan, wins])
        rw [← podContext, ← context] at samePod
        exact congrArg₂ Option.or same samePod

theorem Oldest.name_eq {binds : ProfileBinding → BindProfile → Prop} {first second : ProfileBinding}
    {firstProfile secondProfile : BindProfile} (oldest : Oldest binds first firstProfile)
    (other : Oldest binds second secondProfile) : first.name = second.name := by
  rcases oldest.2 _ _ other.1 with older | ⟨same, named⟩
  · rcases other.2 _ _ oldest.1 with older' | ⟨same, _⟩ <;> omega
  · rcases other.2 _ _ oldest.1 with older' | ⟨_, named'⟩
    · omega
    · exact le_antisymm named named'

theorem Oldest.find_name {kind : ProfileBindingKind} {image : Str} {binding : ProfileBinding}
    {profile : BindProfile} (oldest : Oldest (cluster.Binds pod bindings kind image) binding profile) :
    ∃ found, (eligible cluster pod (sortBindings bindings)).find? (fun found =>
      found.1.kind = kind && found.1.image = image) = some found ∧ found.1.name = binding.name := by
  cases wins : (eligible cluster pod (sortBindings bindings)).find? (fun found =>
      found.1.kind = kind && found.1.image = image) with
  | none => exact absurd oldest.1 (not_binds_of_find wins _ _)
  | some found => exact ⟨found, rfl, (oldest_of_find wins).name_eq oldest⟩

theorem mem_appliedNames_iff_won {name : Str} :
    name ∈ appliedNames (eligible cluster pod (sortBindings bindings))
      ((pod.initContainers ++ pod.containers).map (·.image)) ↔
      Won cluster pod bindings name := by
  rw [mem_appliedNames kindedFound_eligible]
  constructor
  · rintro (⟨image, member, kind, winner, wins, named⟩ | ⟨kind, winner, wins, named⟩)
    · obtain ⟨container, isMember, rfl⟩ := mem_map.mp member
      exact ⟨winner.1, winner.2, kind, named, Or.inl ⟨container, isMember, oldest_of_imageWinner wins⟩⟩
    · exact ⟨winner.1, winner.2, kind, named, Or.inr (oldest_of_find wins)⟩
  · rintro ⟨binding, profile, kind, named, ⟨container, member, oldest⟩ | oldest⟩
    · obtain ⟨winner, wins, same⟩ := oldest.find_name
      by_cases specific : container.image = selectAllContainersImage
      · rw [specific] at wins
        exact Or.inr ⟨kind, winner, wins, same.trans named⟩
      · exact Or.inl ⟨container.image, mem_map_of_mem member, kind, winner, (imageWinner_eq specific _).trans wins,
          same.trans named⟩
    · obtain ⟨winner, wins, same⟩ := oldest.find_name
      exact Or.inr ⟨kind, winner, wins, same.trans named⟩

end treated

/-- The annotation lists the bindings that won, and only those. -/
def Annotated (cluster : Cluster) (bindings : List ProfileBinding) (pod after : Pod) : Prop :=
  ∃ names : List Str, names.Pairwise (· < ·) ∧ (∀ name, name ∈ names ↔ Won cluster pod bindings name) ∧
    after.annotations.lookup appliedBindings = if names = [] then none else some ([','].intercalate names)

section admitted

variable {cluster : Cluster} {kinds : List ProfileBindingKind} {bindings : List ProfileBinding} {name : Str}
  {pod after : Pod}

section

variable (perm : AllKinds kinds)
include perm

theorem create_enforced (notWindows : pod.isWindows = false)
    (admitted : (updatePod cluster kinds bindings name .create pod).admits pod = some after) :
    List.Forall₂ (Treated cluster bindings pod after) pod.initContainers after.initContainers ∧
      List.Forall₂ (Treated cluster bindings pod after) pod.containers after.containers ∧
      Annotated cluster bindings pod after := by
  obtain ⟨_, rfl⟩ := (answers_create perm notWindows).admits admitted
  have each : ∀ container,
      Treated cluster bindings pod (boundPod (eligible cluster pod (sortBindings bindings)) pod)
      container (bindOne true (eligible cluster pod (sortBindings bindings)) container) :=
      fun _ => treated_bindOne true rfl
  refine ⟨forall₂_map_same each _, forall₂_map_same each _, _, Text.pairwise_compact (pairwise_insertionSort _ _),
    fun name => ?_, setAppliedBindings_lookup pod _⟩
  exact Text.mem_compact_sort.trans mem_appliedNames_iff_won

theorem addEphemeral_enforced (notWindows : pod.isWindows = false) {oldPod : Pod}
    (admitted : (updatePod cluster kinds bindings name (.addEphemeral oldPod) pod).admits pod = some after)
    {index : Nat} {container : Container} (atIndex : pod.ephemeralContainers[index]? = some container)
    (new : isNew oldPod container = true) :
    ∃ changed, after.ephemeralContainers[index]? = some changed ∧
      Treated cluster bindings pod after container changed := by
  obtain ⟨_, rfl⟩ := (answers_addEphemeral perm notWindows oldPod).admits admitted
  refine ⟨bindOne false (eligible cluster pod (sortBindings bindings)) container, ?_, treated_bindOne false rfl⟩
  rw [boundEphemeral, getElem?_map, atIndex, Option.map_some, if_pos new]

end

/-- The oldest binding is enforced on every container of a pod that is no Windows pod. This holds for each kind of
profiles, when the pod is created and when it gets ephemeral containers. -/
theorem oldest_binding_enforced (perm : kinds.Perm [.seccompProfile, .selinuxProfile, .appArmorProfile])
    (notWindows : pod.isWindows = false) :
    ((updatePod cluster kinds bindings name .create pod).admits pod = some after →
      List.Forall₂ (Treated cluster bindings pod after) pod.initContainers after.initContainers ∧
        List.Forall₂ (Treated cluster bindings pod after) pod.containers after.containers ∧
        Annotated cluster bindings pod after) ∧
    ∀ oldPod, (updatePod cluster kinds bindings name (.addEphemeral oldPod) pod).admits pod = some after →
      ∀ (index : Nat) (container : Container), pod.ephemeralContainers[index]? = some container →
        isNew oldPod container = true → ∃ changed, after.ephemeralContainers[index]? = some changed ∧
        Treated cluster bindings pod after container changed :=
  ⟨create_enforced perm notWindows, fun _ admitted _ _ atIndex new =>
    addEphemeral_enforced perm notWindows admitted atIndex new⟩

end admitted

theorem nginx_bound : ∃ after,
    (updatePod readyCluster [.seccompProfile, .selinuxProfile, .appArmorProfile]
      [seccompBinding "young" "nginx" 2, seccompBinding "old" "nginx" 1] [] .create
      (nginxPod false)).admits (nginxPod false) = some after ∧
    List.Forall₂ (Treated readyCluster [seccompBinding "young" "nginx" 2, seccompBinding "old" "nginx" 1]
      (nginxPod false) after) (nginxPod false).containers after.containers :=
  ⟨_, rfl, ((oldest_binding_enforced (List.Perm.refl _) rfl).1 rfl).2.1⟩

/-- A Windows pod is admitted as it is, although a binding is for all containers. -/
theorem windows_pod_unbound :
    (updatePod readyCluster [.seccompProfile, .selinuxProfile, .appArmorProfile]
      [seccompBinding "all" "*" 1] [] .create
      (nginxPod true)).admits (nginxPod true) = some (nginxPod true) ∧
    readyCluster.Binds (nginxPod true) [seccompBinding "all" "*" 1] .seccompProfile selectAllContainersImage
      (seccompBinding "all" "*" 1) (.seccomp "all".toList) ∧
    inEffect (nginxPod true) nginxContainer .seccompProfile = none :=
  ⟨rfl, ⟨mem_singleton_self _, rfl, rfl, rfl, rfl⟩, rfl⟩

end SecurityProfiles.Binding
