import SecurityProfiles.Binding.Apply

namespace SecurityProfiles.Binding

open List

inductive Setting where
  | seccomp (profile : SeccompSetting)
  | selinux (options : SELinuxOptions)
  | appArmor (profile : AppArmorSetting)
deriving DecidableEq

def SecurityContext.setting (context : SecurityContext) : ProfileBindingKind → Option Setting
  | .seccompProfile => context.seccompProfile.map .seccomp
  | .selinuxProfile => context.selinuxOptions.map .selinux
  | .appArmorProfile => context.appArmorProfile.map .appArmor
  | .unsupported _ => none

def settingOf (context : Option SecurityContext) (kind : ProfileBindingKind) : Option Setting :=
  context.bind (·.setting kind)

def Container.setting (container : Container) : ProfileBindingKind → Option Setting :=
  settingOf container.securityContext

def Pod.setting (pod : Pod) : ProfileBindingKind → Option Setting := settingOf pod.securityContext

def BindProfile.IsSet (setting : Option Setting) : BindProfile → Prop
  | .seccomp reference => setting = some (.seccomp ⟨localhost, some reference⟩)
  | .selinux usage => ∃ options, setting = some (.selinux options) ∧ options.type = usage
  | .appArmor name => setting = some (.appArmor ⟨localhost, some name⟩)

variable {profile : BindProfile} {cluster : Cluster} {pod : Pod} {bindings : List ProfileBinding}

theorem BindProfile.IsSet.isSome {setting : Option Setting} (isSet : profile.IsSet setting) :
    ∃ value, setting = some value := by
  cases profile with
  | seccomp reference => exact ⟨_, isSet⟩
  | selinux usage => exact ⟨_, isSet.choose_spec.1⟩
  | appArmor name => exact ⟨_, isSet⟩

theorem settingOf_setProfile_self (context : Option SecurityContext) (profile : BindProfile) :
    profile.IsSet (settingOf (some (setProfile context profile)) profile.kind) := by
  cases profile with
  | seccomp reference => rfl
  | selinux usage =>
    refine ⟨_, rfl, ?_⟩
    cases context.getD .empty |>.selinuxOptions <;> rfl
  | appArmor name => rfl

theorem settingOf_setProfile_other (context : Option SecurityContext) {kind : ProfileBindingKind}
    (other : kind ≠ profile.kind) :
    settingOf (some (setProfile context profile)) kind = settingOf context kind := by
  cases context <;> cases profile <;> cases kind <;> first | rfl | exact absurd rfl other

section container

variable {container : Container} {profile : BindProfile}

theorem hasContainerContext_eq :
    hasContainerContext container profile = (container.setting profile.kind).isSome := by
  unfold hasContainerContext Container.setting settingOf
  cases container.securityContext <;> cases profile <;> simp [SecurityContext.setting, BindProfile.kind]

end container

abbrev Found := ProfileBinding × BindProfile

def imageWinner (bindings : List Found) (kind : ProfileBindingKind) (image : Str) : Option Found :=
  bindings.find? fun found => found.1.kind = kind && found.1.image = image && image ≠ selectAllContainersImage

def wildcardWinner (bindings : List Found) (kind : ProfileBindingKind) : Option Found :=
  bindings.find? fun found => found.1.kind = kind && found.1.image = selectAllContainersImage

section append

variable {bindings : List Found} {found : Found} {kind : ProfileBindingKind} {image : Str}

theorem imageWinner_append : imageWinner (bindings ++ [found]) kind image =
    (imageWinner bindings kind image).or
      (if found.1.kind = kind ∧ found.1.image = image ∧ image ≠ selectAllContainersImage
        then some found else none) := by
  simp [imageWinner, find?_append, find?_singleton, and_assoc]

theorem wildcardWinner_append : wildcardWinner (bindings ++ [found]) kind =
    (wildcardWinner bindings kind).or
      (if found.1.kind = kind ∧ found.1.image = selectAllContainersImage then some found else none) := by
  simp [wildcardWinner, find?_append, find?_singleton]

theorem imageWinner_append_first (ofImage : found.1.image = image) (specific : image ≠ selectAllContainersImage)
    (free : imageWinner bindings found.1.kind image = none) : imageWinner (bindings ++ [found]) kind image =
      if kind = found.1.kind then some found else imageWinner bindings kind image := by
  rw [imageWinner_append]
  by_cases ofKind : kind = found.1.kind
  · rw [ofKind, free]
    simp [ofImage, specific]
  · simp [ofKind, Ne.symm ofKind]

theorem imageWinner_append_later (bound : found.1.image = image → image ≠ selectAllContainersImage →
    imageWinner bindings found.1.kind image ≠ none) :
    imageWinner (bindings ++ [found]) kind image = imageWinner bindings kind image := by
  rw [imageWinner_append]
  split
  · next isWanted =>
      obtain ⟨winner, wins⟩ := Option.ne_none_iff_exists'.mp (bound isWanted.2.1 isWanted.2.2)
      rw [← isWanted.1, wins, Option.some_or]
  · exact Option.or_none

theorem wildcardWinner_kind (wins : wildcardWinner bindings kind = some found) : found.1.kind = kind := by
  have isWanted := find?_some wins
  simp only [Bool.and_eq_true, decide_eq_true_eq] at isWanted
  exact isWanted.1

end append

/-- The kinds are all of them, in the order that the iteration over a map has. -/
abbrev AllKinds (kinds : List ProfileBindingKind) : Prop :=
  kinds.Perm [.seccompProfile, .selinuxProfile, .appArmorProfile]

theorem mem_kinds {kinds : List ProfileBindingKind} (perm : AllKinds kinds) (profile : BindProfile) :
    profile.kind ∈ kinds := by
  rw [perm.mem_iff]
  cases profile <;> simp [BindProfile.kind]

section order

theorem before_refl (binding : ProfileBinding) : binding.before binding := Or.inr ⟨rfl, le_rfl⟩

instance : Std.Total ProfileBinding.before where
  total first second := by
    rcases lt_trichotomy first.creationTimestamp second.creationTimestamp with older | same | younger
    · exact Or.inl (Or.inl older)
    · exact (le_total first.name second.name).imp (fun named => Or.inr ⟨same, named⟩) fun named =>
        Or.inr ⟨same.symm, named⟩
    · exact Or.inr (Or.inl younger)

instance : IsTrans ProfileBinding ProfileBinding.before where
  trans first second third := by
    rintro (older | ⟨same, named⟩) (older' | ⟨same', named'⟩)
    · exact Or.inl (older.trans older')
    · exact Or.inl (same' ▸ older)
    · exact Or.inl (same ▸ older')
    · exact Or.inr ⟨same.trans same', named.trans named'⟩

theorem sortBindings_sorted (bindings : List ProfileBinding) :
    (sortBindings bindings).Pairwise ProfileBinding.before :=
  pairwise_insertionSort _ _

theorem mem_sortBindings {bindings : List ProfileBinding} {binding : ProfileBinding} :
    binding ∈ sortBindings bindings ↔ binding ∈ bindings := mem_insertionSort _

end order

/-- The bindings whose profile is to be applied to the pod. -/
def eligible (cluster : Cluster) (pod : Pod) (bindings : List ProfileBinding) : List Found :=
  bindings.filterMap fun binding =>
    if podMatchesSelector cluster pod binding then
      match getProfile cluster binding with
      | .profile profile => some (binding, profile)
      | _ => none
    else none

/-- A binding counts if it selects the pod and its profile is found. -/
theorem mem_eligible {found : Found} :
    found ∈ eligible cluster pod bindings ↔
      found.1 ∈ bindings ∧ podMatchesSelector cluster pod found.1 = true ∧
      getProfile cluster found.1 = .profile found.2 := by
  simp only [eligible, mem_filterMap, Option.ite_none_right_eq_some]
  constructor
  · rintro ⟨binding, listed, selected, same⟩
    cases outcome : getProfile cluster binding with
    | profile profile =>
      rw [outcome] at same
      obtain rfl := Option.some.inj same
      exact ⟨listed, selected, outcome⟩
    | skip =>
      rw [outcome] at same
      cases same
    | failed =>
      rw [outcome] at same
      cases same
  · rintro ⟨listed, selected, outcome⟩
    exact ⟨found.1, listed, selected, by rw [outcome]⟩

theorem getProfile_kind {binding : ProfileBinding}
    (outcome : getProfile cluster binding = .profile profile) : profile.kind = binding.kind := by
  have wrapped : ∀ {wrap : Str → BindProfile} {enabled : Bool} {lookup : Lookup},
      lookupOutcome enabled wrap lookup = .profile profile → ∃ reference, profile = wrap reference := by
    intro wrap enabled lookup looked
    cases lookup with
    | installed reference => exact ⟨reference, (Outcome.profile.inj looked).symm⟩
    | withoutStatus => cases enabled <;> cases looked
    | notFound => cases looked
    | failed => cases looked
  unfold getProfile at outcome
  split at outcome
  · cases outcome
  · cases ofKind : binding.kind with
    | unsupported name =>
      rw [ofKind] at outcome
      cases outcome
    | seccompProfile =>
      rw [ofKind] at outcome
      obtain ⟨reference, rfl⟩ := wrapped outcome
      rfl
    | selinuxProfile =>
      rw [ofKind] at outcome
      obtain ⟨reference, rfl⟩ := wrapped outcome
      rfl
    | appArmorProfile =>
      rw [ofKind] at outcome
      obtain ⟨reference, rfl⟩ := wrapped outcome
      rfl

/-- Unless a lookup fails, the bindings that count are applied one after the other. The others have no effect. -/
theorem applyBindings_eq {podName : Str}
    {state final : BindState} (ok : applyBindings cluster pod podName bindings state = some final) :
    final = (eligible cluster pod bindings).foldl (fun state found => applyBinding podName state found.1 found.2)
      state := by
  fun_induction applyBindings cluster pod podName bindings state with
  | case1 state => exact (Option.some.inj ok).symm
  | case2 => cases ok
  | case3 binding rest state selected skipped ih =>
    rw [ih ok]
    simp [eligible, selected, skipped]
  | case4 binding rest state selected profile outcome ih =>
    rw [ih ok]
    simp [eligible, selected, outcome]
  | case5 binding rest state other ih =>
    rw [ih ok]
    simp [eligible, other]

theorem setAppliedBindings_lookup (pod : Pod) (applied : List Str) :
    (setAppliedBindings pod applied).1.annotations.lookup appliedBindings =
      if Text.compact (Text.sort applied) = [] then none else some
        ([','].intercalate (Text.compact (Text.sort applied))) := by
  unfold setAppliedBindings
  dsimp only
  split
  · by_contra present
    obtain ⟨value, found⟩ := Option.ne_none_iff_exists'.mp present
    exact (SortedMap.lookup_erase_eq_some.mp found).1 rfl
  · exact SortedMap.lookup_insert_self _ _ _

theorem setAppliedBindings_unchanged {applied : List Str}
    (unchanged : (setAppliedBindings pod applied).2 = false) : (setAppliedBindings pod applied).1 = pod := by
  have sameLookup : ∀ key, (setAppliedBindings pod applied).1.annotations.lookup key =
      pod.annotations.lookup key := by
    intro key
    by_cases here : key = appliedBindings
    · rw [here, setAppliedBindings_lookup]
      unfold setAppliedBindings at unchanged
      dsimp only at unchanged
      split at unchanged
      · next none =>
          rw [if_pos none]
          exact (Option.not_isSome_iff_eq_none.mp (Bool.eq_false_iff.mp unchanged)).symm
      · next some' =>
          rw [if_neg some']
          exact (not_not.mp (of_decide_eq_false unchanged)).symm
    · unfold setAppliedBindings
      dsimp only
      split
      · apply Option.ext
        intro value
        exact SortedMap.lookup_erase_eq_some.trans (and_iff_right here)
      · exact SortedMap.lookup_insert_ne _ _ here
  have sameAnnotations := SortedMap.ext_lookup sameLookup
  have rest : { (setAppliedBindings pod applied).1 with annotations := pod.annotations } = pod := by
    unfold setAppliedBindings
    dsimp only
    split <;> rfl
  rw [← sameAnnotations] at rest
  exact rest

end SecurityProfiles.Binding
