import SecurityProfiles.Binding.Winners

namespace SecurityProfiles.Binding

open List Function

section contexts

variable {profile first second : BindProfile} {context : Option SecurityContext} {kind : ProfileBindingKind}
  {profiles others : ProfileBindingKind → Option BindProfile}

/-- The settings with those for the profile, if there is one. -/
def setIf (profile : Option BindProfile) (context : Option SecurityContext) : Option SecurityContext :=
  match profile with
  | none => context
  | some profile => some (setProfile context profile)

/-- The settings with those for the profiles of all kinds. -/
def setAll (profiles : ProfileBindingKind → Option BindProfile) (context : Option SecurityContext) :
    Option SecurityContext :=
  setIf (profiles .seccompProfile) (setIf (profiles .selinuxProfile) (setIf (profiles .appArmorProfile) context))

/-- Each profile is listed under its kind. -/
def Kinded (profiles : ProfileBindingKind → Option BindProfile) : Prop :=
  ∀ kind profile, profiles kind = some profile → profile.kind = kind

theorem setProfile_comm (different : first.kind ≠ second.kind) :
    setProfile (some (setProfile context first)) second = setProfile (some (setProfile context second)) first := by
  cases first <;> cases second <;> first | rfl | exact absurd rfl different

/-- Settings of different kinds may be written in any order. -/
theorem setIf_comm {first second : Option BindProfile}
    (different : ∀ one ∈ first, ∀ other ∈ second, one.kind ≠ other.kind) :
    setIf first (setIf second context) = setIf second (setIf first context) := by
  cases first with
  | none => rfl
  | some first =>
    cases second with
    | none => rfl
    | some second => exact congrArg some (setProfile_comm (different first rfl second rfl)).symm

/-- A profile is written to no effect, exactly if it is set already. -/
theorem setProfile_eq_iff : some (setProfile context profile) = context ↔
    profile.IsSet (settingOf context profile.kind) := by
  constructor
  · intro same
    have isSet := settingOf_setProfile_self context profile
    rwa [same] at isSet
  · intro isSet
    cases context with
    | none =>
      obtain ⟨value, some'⟩ := isSet.isSome
      cases some'
    | some context =>
      obtain ⟨seccomp, selinux, appArmor, rest⟩ := context
      cases profile with
      | seccomp reference =>
        cases seccomp with
        | none => cases isSet
        | some setting =>
          obtain rfl : setting = _ := Setting.seccomp.inj (Option.some.inj isSet)
          rfl
      | selinux usage =>
        obtain ⟨options, isSetting, isType⟩ := isSet
        cases selinux with
        | none => cases isSetting
        | some setting =>
          obtain rfl : setting = options := Setting.selinux.inj (Option.some.inj isSetting)
          obtain rfl := isType
          rfl
      | appArmor name =>
        cases appArmor with
        | none => cases isSet
        | some setting =>
          obtain rfl : setting = _ := Setting.appArmor.inj (Option.some.inj isSet)
          rfl

theorem settingOf_setIf_other {profile : Option BindProfile} (other : ∀ one ∈ profile, kind ≠ one.kind) :
    settingOf (setIf profile context) kind = settingOf context kind := by
  cases profile with
  | none => rfl
  | some profile => exact settingOf_setProfile_other context (other profile rfl)

theorem settingOf_setAll_free (kinded : Kinded profiles) (free : profiles kind = none) :
    settingOf (setAll profiles context) kind = settingOf context kind := by
  have apart : ∀ listed, ∀ one ∈ profiles listed, kind ≠ one.kind := by
    intro listed one member same
    rw [same, kinded listed one member, member] at free
    cases free
  rw [setAll, settingOf_setIf_other (apart _), settingOf_setIf_other (apart _), settingOf_setIf_other (apart _)]

/-- A profile may as well be written last. -/
theorem setAll_insert (kinded : Kinded profiles) (free : profiles profile.kind = none) :
    setAll (update profiles profile.kind (some profile)) context =
      some (setProfile (setAll profiles context) profile) := by
  have apart : ∀ listed, listed ≠ profile.kind → ∀ one ∈ profiles listed, ∀ other ∈ some profile,
      one.kind ≠ other.kind := by
    rintro listed different one member other ⟨⟩
    rw [kinded listed one member]
    exact different
  cases profile with
  | seccomp reference =>
    simp only [BindProfile.kind] at free ⊢
    simp [setAll, setIf, free]
  | selinux usage =>
    have moved := @setIf_comm (setIf (profiles .appArmorProfile) context) (profiles .seccompProfile)
      (some (.selinux usage)) (apart _ (by simp [BindProfile.kind]))
    simp only [BindProfile.kind] at free ⊢
    simpa [setAll, setIf, free] using moved
  | appArmor name =>
    have movedFirst := @setIf_comm context (profiles .selinuxProfile) (some (.appArmor name))
      (apart _ (by simp [BindProfile.kind]))
    have moved := @setIf_comm (setIf (profiles .selinuxProfile) context) (profiles .seccompProfile)
      (some (.appArmor name)) (apart _ (by simp [BindProfile.kind]))
    simp only [BindProfile.kind] at free ⊢
    simp only [setAll, update_self, ne_eq, reduceCtorEq, not_false_eq_true, update_of_ne, free]
    rw [movedFirst, moved]
    rfl

theorem settingOf_setAll_set (kinded : Kinded profiles) (isProfile : profiles kind = some profile) :
    profile.IsSet (settingOf (setAll profiles context) kind) := by
  obtain rfl := kinded kind profile isProfile
  have free : update profiles profile.kind none profile.kind = none := update_self ..
  have kindedRest : Kinded (update profiles profile.kind none) := by
    intro kind other isOther
    by_cases same : kind = profile.kind
    · rw [same, update_self] at isOther
      cases isOther
    · rw [update_of_ne same] at isOther
      exact kinded kind other isOther
  have written := @setAll_insert _ context _ kindedRest free
  have restored : update (update profiles profile.kind none) profile.kind (some profile) = profiles := by
    rw [update_idem, ← isProfile, update_eq_self]
  rw [restored] at written
  rw [written]
  exact settingOf_setProfile_self _ _

theorem setIf_of_isSet {given : Option BindProfile}
    (isSet : ∀ one ∈ given, one.IsSet (settingOf context one.kind)) :
    setIf given context = context := by
  cases given with
  | none => rfl
  | some profile => exact setProfile_eq_iff.mpr (isSet profile rfl)

section

variable (kinded : Kinded profiles)
include kinded

/-- The profiles are written to no effect, exactly if all of them are set already. -/
theorem setAll_eq_iff : setAll profiles context = context ↔
    ∀ kind profile, profiles kind = some profile → profile.IsSet (settingOf context kind) := by
  constructor
  · intro same kind profile isProfile
    have isSet := @settingOf_setAll_set profile context kind profiles kinded isProfile
    rwa [same] at isSet
  · intro areSet
    have each : ∀ listed, setIf (profiles listed) context = context := by
      intro listed
      apply setIf_of_isSet
      intro one member
      have isSet := areSet listed one member
      rwa [← kinded listed one member] at isSet
    rw [setAll, each, each, each]

theorem Kinded.insert (profile : BindProfile) : Kinded (update profiles profile.kind (some profile)) := by
  intro kind other isOther
  by_cases same : kind = profile.kind
  · rw [same, update_self] at isOther
    rw [same, Option.some.inj isOther]
  · rw [update_of_ne same] at isOther
    exact kinded kind other isOther

/-- Another profile is written to no effect, exactly if those before it and this one are. -/
theorem setAll_insert_eq_iff (free : profiles profile.kind = none) :
    setAll (update profiles profile.kind (some profile)) context = context ↔
      setAll profiles context = context ∧ some (setProfile (setAll profiles context) profile) =
      setAll profiles context := by
  constructor
  · intro same
    have areSet := (setAll_eq_iff (kinded.insert profile)).mp same
    have before : setAll profiles context = context := by
      refine (setAll_eq_iff kinded).mpr fun kind other isOther => areSet kind other ?_
      rw [update_of_ne, isOther]
      rintro rfl
      rw [free] at isOther
      cases isOther
    refine ⟨before, ?_⟩
    rw [← setAll_insert kinded free, same, before]
  · rintro ⟨before, same⟩
    rw [setAll_insert kinded free, same, before]

theorem setAll_setAll : setAll profiles (setAll profiles context) = setAll profiles context :=
  (setAll_eq_iff kinded).mpr fun _ _ isProfile => settingOf_setAll_set kinded isProfile

end

end contexts

section plans

def Container.withAll (profiles : ProfileBindingKind → Option BindProfile) (container : Container) : Container :=
  { container with securityContext := setAll profiles container.securityContext }

variable {profiles : ProfileBindingKind → Option BindProfile} {profile : BindProfile} {container : Container}

theorem withAll_eq_iff : container.withAll profiles = container ↔
    setAll profiles container.securityContext = container.securityContext :=
  ⟨congrArg Container.securityContext, congrArg fun context => { container with securityContext := context }⟩

theorem withAll_insert (kinded : Kinded profiles) (free : profiles profile.kind = none) :
    container.withAll (update profiles profile.kind (some profile)) =
        (addSecurityContext (container.withAll profiles) profile).1 ∧
      (container.withAll (update profiles profile.kind (some profile)) ≠ container ↔
        container.withAll profiles ≠ container ∨
        (addSecurityContext (container.withAll profiles) profile).2 = true) := by
  constructor
  · rw [Container.withAll, setAll_insert kinded free]
    rfl
  · rw [ne_eq, ne_eq, withAll_eq_iff, withAll_eq_iff, setAll_insert_eq_iff kinded free, not_and_or]
    exact or_congr_right decide_eq_true_iff.symm

/-- The profile of a kind for a container: that of the binding for its image, or else that of the wildcard binding.
If the pod is bound as a whole, the latter is for containers with a setting of their own. -/
def planFor (whole : Bool) (found : List Found) (wild : ProfileBindingKind → Option Found) (container : Container)
    (kind : ProfileBindingKind) : Option BindProfile :=
  ((imageWinner found kind container.image).or
    (if !whole || (container.setting kind).isSome then wild kind else none)).map (·.2)

/-- The profile of a kind for the pod. -/
def podPlan (whole : Bool) (wild : ProfileBindingKind → Option Found) (kind : ProfileBindingKind) :
    Option BindProfile :=
  if whole then (wild kind).map (·.2) else none

/-- Each profile was found under the kind of its binding. -/
def KindedFound (found : List Found) : Prop := ∀ one ∈ found, one.2.kind = one.1.kind

variable {whole : Bool} {found : List Found} {wild : ProfileBindingKind → Option Found} {kind : ProfileBindingKind}
  {winner : Found}

theorem imageWinner_kind (kinded : KindedFound found) {image : Str}
    (wins : imageWinner found kind image = some winner) : winner.2.kind = kind := by
  have isWanted := find?_some wins
  simp only [Bool.and_eq_true, decide_eq_true_eq] at isWanted
  rw [kinded winner (mem_of_find?_eq_some wins), isWanted.1.1]

theorem wildcardWinner_profile (kinded : KindedFound found) (wins : wildcardWinner found kind = some winner) :
    winner.2.kind = kind := by
  rw [kinded winner (mem_of_find?_eq_some wins), wildcardWinner_kind wins]

theorem kinded_planFor (kinded : KindedFound found)
    (wildKinded : ∀ kind winner, wild kind = some winner → winner.2.kind = kind) (container : Container) :
    Kinded (planFor whole found wild container) := by
  intro kind profile isProfile
  obtain ⟨winner, wins, rfl⟩ := Option.map_eq_some_iff.mp isProfile
  rcases Option.or_eq_some_iff.mp wins with byImage | ⟨_, byWildcard⟩
  · exact imageWinner_kind kinded byImage
  · split at byWildcard
    · exact wildKinded kind winner byWildcard
    · cases byWildcard

theorem kinded_podPlan (wildKinded : ∀ kind winner, wild kind = some winner → winner.2.kind = kind) :
    Kinded (podPlan whole wild) := by
  intro kind profile isProfile
  unfold podPlan at isProfile
  split at isProfile
  · obtain ⟨winner, wins, rfl⟩ := Option.map_eq_some_iff.mp isProfile
    exact wildKinded kind winner wins
  · cases isProfile

end plans

section loops

variable {S T : Type} {change : S → Nat → S} {view : S → Nat → T} {touch : T → T} {indexes : List Nat}

section

variable (own : ∀ state index other, view (change state index) other =
  if other = index then touch (view state other) else view state other)
include own

/-- A loop whose passes change what is at their own index only. -/
theorem foldl_view (nodup : indexes.Nodup) (state : S) (other : Nat) :
    view (indexes.foldl change state) other =
      if other ∈ indexes then touch (view state other) else view state other := by
  induction indexes generalizing state with
  | nil => rfl
  | cons index rest ih =>
    obtain ⟨notLater, nodupRest⟩ := nodup_cons.mp nodup
    rw [foldl_cons, ih nodupRest, own]
    by_cases same : other = index
    · simp [same, notLater]
    · simp [same]

theorem foldl_flag (nodup : indexes.Nodup) {flag : S → Prop} {raises : T → Prop}
    (flags : ∀ state index, flag (change state index) ↔ flag state ∨ raises (view state index)) (state : S) :
    flag (indexes.foldl change state) ↔ flag state ∨ ∃ index ∈ indexes, raises (view state index) := by
  induction indexes generalizing state with
  | nil => simp
  | cons index rest ih =>
    obtain ⟨notLater, nodupRest⟩ := nodup_cons.mp nodup
    have later : (∃ other ∈ rest, raises (view (change state index) other)) ↔
        ∃ other ∈ rest, raises (view state other) :=
      exists_congr fun other => and_congr_right fun isLater => by
        rw [own, if_neg (ne_of_mem_of_not_mem isLater notLater)]
    rw [foldl_cons, ih nodupRest, flags, later, or_assoc, exists_mem_cons_iff]

end

end loops

section images

/-- A container and the bindings for its image. -/
abbrev Slot := Option Container × (ProfileBindingKind → Option ProfileBinding)

def BindState.slot (state : BindState) (index : Nat) : Slot :=
  (state.containers[index]?, fun kind => state.boundBy kind index)

/-- The container, if it is one with the image and no binding of the kind. -/
def Slot.hit (binding : ProfileBinding) (slot : Slot) : Option Container :=
  slot.1.filter fun container => (slot.2 binding.kind).isNone && container.image = binding.image

/-- The binding changes the container. -/
def Slot.Changes (binding : ProfileBinding) (profile : BindProfile) (slot : Slot) : Prop :=
  ∃ container ∈ slot.hit binding, (addSecurityContext container profile).2 = true

def Slot.Names (binding : ProfileBinding) (name : Str) (slot : Slot) : Prop :=
  (slot.hit binding).isSome ∧ name = binding.name

def Slot.bind (binding : ProfileBinding) (profile : BindProfile) (slot : Slot) : Slot :=
  match slot.hit binding with
  | none => slot
  | some container =>
    (some (addSecurityContext container profile).1, update slot.2 binding.kind (some binding))

variable {podName : Str} {binding : ProfileBinding} {profile : BindProfile} {state : BindState} {index : Nat}
  {container : Container}

theorem bindImage_hit (hit : (state.slot index).hit binding = some container) :
    bindImage podName binding profile state index = { state with
      containers := state.containers.set index (addSecurityContext container profile).1
      boundBy := update state.boundBy binding.kind
        (update (state.boundBy binding.kind) index (some binding))
      applied := state.applied ++ [binding.name]
      podChanged := state.podChanged || (addSecurityContext container profile).2 } := by
  obtain ⟨atIndex, wanted⟩ := Option.filter_eq_some_iff.mp hit
  simp only [BindState.slot, Bool.and_eq_true, decide_eq_true_eq, Option.isNone_iff_eq_none] at atIndex wanted
  simp only [bindImage, atIndex, if_pos wanted.2, bindContainer, wanted.1]

theorem bindImage_miss (miss : (state.slot index).hit binding = none) :
    ∃ warnings, bindImage podName binding profile state index = { state with warnings } := by
  unfold bindImage
  split
  · exact ⟨_, rfl⟩
  next container atIndex =>
  split
  · next image =>
      unfold bindContainer
      split
      · unfold warn
        split <;> exact ⟨_, rfl⟩
      · next free =>
          rw [Slot.hit, BindState.slot, atIndex] at miss
          simp [free, image] at miss
  · exact ⟨_, rfl⟩

theorem bindImage_slot (state : BindState) (index other : Nat) :
    (bindImage podName binding profile state index).slot other =
      if other = index then Slot.bind binding profile (state.slot other) else state.slot other := by
  cases hit : (state.slot index).hit binding with
  | none =>
    obtain ⟨warnings, same⟩ := @bindImage_miss podName binding profile state index hit
    rw [same]
    split
    · next here =>
        subst here
        rw [Slot.bind, hit]
        rfl
    · rfl
  | some container =>
    have inRange : index < state.containers.length :=
      (List.getElem?_eq_some_iff.mp (Option.filter_eq_some_iff.mp hit).1).1
    rw [bindImage_hit hit]
    split
    · next here =>
        subst here
        rw [Slot.bind, hit]
        refine Prod.ext (getElem?_set_self inRange) (funext fun kind => ?_)
        by_cases ofKind : kind = binding.kind <;> simp [BindState.slot, ofKind]
    · next elsewhere =>
        refine Prod.ext (getElem?_set_ne (Ne.symm elsewhere)) (funext fun kind => ?_)
        by_cases ofKind : kind = binding.kind <;> simp [BindState.slot, ofKind, elsewhere]

theorem bindImage_flags (state : BindState) (index : Nat) (name : Str) :
    ((bindImage podName binding profile state index).podChanged = true ↔ state.podChanged = true ∨
        (state.slot index).Changes binding profile) ∧
      (name ∈ (bindImage podName binding profile state index).applied ↔ name ∈ state.applied ∨
        (state.slot index).Names binding name) ∧
      (bindImage podName binding profile state index).wildcards = state.wildcards := by
  cases hit : (state.slot index).hit binding with
  | none =>
    obtain ⟨warnings, same⟩ := @bindImage_miss podName binding profile state index hit
    simp [same, Slot.Changes, Slot.Names, hit]
  | some container => simp [bindImage_hit hit, Slot.Changes, Slot.Names, hit]

end images

section bound

variable {whole : Bool} {found : List Found} {wild : ProfileBindingKind → Option Found} {pod : Pod}
  {before : List Container} {current : Pod × BindState} {container : Container} {binding : ProfileBinding}
  {profile : BindProfile} {kind : ProfileBindingKind} {winner : Found}

/-- What became of a container. -/
def slotOf (whole : Bool) (found : List Found) (wild : ProfileBindingKind → Option Found)
    (original : Option Container) : Slot :=
  (original.map fun container => container.withAll (planFor whole found wild container),
    fun kind => original.bind fun container => (imageWinner found kind container.image).map (·.1))

/-- What the bindings so far and the wildcard bindings that were applied did to the containers and the pod. -/
structure Bound (whole : Bool) (found : List Found) (wild : ProfileBindingKind → Option Found) (pod : Pod)
    (before : List Container) (current : Pod × BindState) : Prop where
  slots : ∀ index, current.2.slot index = slotOf whole found wild before[index]?
  wildcards : ∀ kind, current.2.wildcards kind = wildcardWinner found kind
  context : current.1 = { pod with securityContext := setAll (podPlan whole wild) pod.securityContext }
  reported : current.2.podChanged = true ↔
    (∃ container ∈ before, container.withAll (planFor whole found wild container) ≠ container) ∨
      setAll (podPlan whole wild) pod.securityContext ≠ pod.securityContext
  applied : ∀ name, name ∈ current.2.applied ↔
    (∃ container ∈ before, ∃ kind winner, imageWinner found kind container.image = some winner ∧
      winner.1.name = name) ∨
      ∃ kind winner, wild kind = some winner ∧ winner.1.name = name

abbrev noWild : ProfileBindingKind → Option Found := fun _ => none

theorem Bound.containers (bound : Bound whole found wild pod before current) :
    current.2.containers = before.map fun container => container.withAll (planFor whole found wild container) := by
  refine ext_getElem? fun index => ?_
  rw [getElem?_map]
  exact congrArg Prod.fst (bound.slots index)

theorem bound_new (whole : Bool) (pod : Pod) (before : List Container) :
    Bound whole [] noWild pod before (pod, newBindState before) := by
  have unwritten : ∀ container, planFor whole [] noWild container = fun _ => none := fun container => by
    funext kind
    simp [planFor, imageWinner]
  have untouched : podPlan whole noWild = fun _ => none := by
    funext kind
    simp [podPlan]
  have same : ∀ container : Container, container.withAll (fun _ => none) = container := fun _ => rfl
  constructor
  · intro index
    simp [slotOf, unwritten, same, imageWinner, BindState.slot, newBindState]
  · exact fun _ => rfl
  · rw [untouched]
    rfl
  · rw [untouched]
    simp [unwritten, same, newBindState, setAll, setIf]
  · simp [newBindState, imageWinner]

theorem hit_slotOf : (slotOf whole found wild (some container)).hit binding =
    if (imageWinner found binding.kind container.image).isNone && container.image = binding.image then
      some (container.withAll (planFor whole found wild container))
    else none := by
  simp [Slot.hit, slotOf, Option.filter, Container.withAll]

theorem planFor_noWild : planFor whole found noWild container kind =
    (imageWinner found kind container.image).map (·.2) := by
  simp [planFor]

section

variable (kinded : KindedFound found) (ofKind : profile.kind = binding.kind)
  (specific : binding.image ≠ selectAllContainersImage)
include kinded ofKind specific

/-- A binding for an image, as one container sees it. -/
theorem bind_slotOf (container : Container) :
    Slot.bind binding profile (slotOf whole found noWild (some container)) =
        slotOf whole (found ++ [(binding, profile)]) noWild (some container) ∧
      (container.withAll (planFor whole (found ++ [(binding, profile)]) noWild container) ≠ container ↔
        container.withAll (planFor whole found noWild container) ≠ container ∨
          (slotOf whole found noWild (some container)).Changes binding profile) ∧
      ∀ name, (∃ kind winner, imageWinner (found ++ [(binding, profile)]) kind container.image = some winner ∧
          winner.1.name = name) ↔
        (∃ kind winner, imageWinner found kind container.image = some winner ∧ winner.1.name = name) ∨
          (slotOf whole found noWild (some container)).Names binding name := by
  simp only [Slot.bind, Slot.Changes, Slot.Names, hit_slotOf]
  by_cases hits : imageWinner found binding.kind container.image = none ∧ container.image = binding.image
  · obtain ⟨free, image⟩ := hits
    have wins : ∀ kind, imageWinner (found ++ [(binding, profile)]) kind container.image =
        if kind = binding.kind then some (binding, profile) else imageWinner found kind container.image :=
      fun _ => imageWinner_append_first image.symm (image ▸ specific) free
    have planned : planFor whole (found ++ [(binding, profile)]) noWild container =
        update (planFor whole found noWild container) profile.kind (some profile) := by
      funext kind
      rw [planFor_noWild, wins, ofKind]
      by_cases same : kind = binding.kind <;> simp [same, planFor_noWild]
    have written := @withAll_insert _ profile container
      (@kinded_planFor whole found noWild kinded (fun _ _ isNone => (nomatch isNone)) container)
      (by simp [planFor_noWild, ofKind, free])
    rw [if_pos (by rw [free]; exact decide_eq_true image), planned]
    refine ⟨?_, ?_, fun name => ?_⟩
    · refine Prod.ext (by simp only [slotOf, Option.map_some, planned, written.1]) (funext fun kind => ?_)
      simp only [slotOf, Option.bind_some, wins]
      by_cases same : kind = binding.kind <;> simp [same]
    · simp [written.2]
    · simp only [wins, Option.isSome_some, true_and]
      constructor
      · rintro ⟨kind, winner, isWinner, rfl⟩
        split at isWinner
        · exact Or.inr (Option.some.inj isWinner ▸ rfl)
        · exact Or.inl ⟨kind, winner, isWinner, rfl⟩
      · rintro (⟨kind, winner, isWinner, named⟩ | rfl)
        · refine ⟨kind, winner, ?_, named⟩
          rw [if_neg, isWinner]
          rintro rfl
          cases free.symm.trans isWinner
        · exact ⟨binding.kind, _, if_pos rfl, rfl⟩
  · have wins : ∀ kind, imageWinner (found ++ [(binding, profile)]) kind container.image =
        imageWinner found kind container.image := fun _ => imageWinner_append_later fun image _ free =>
      hits ⟨free, image.symm⟩
    have planned : planFor whole (found ++ [(binding, profile)]) noWild container =
        planFor whole found noWild container := by
      funext kind
      rw [planFor_noWild, planFor_noWild, wins]
    have miss : ¬((imageWinner found binding.kind container.image).isNone &&
        decide (container.image = binding.image)) = true := by
      simpa using hits
    rw [if_neg miss, planned]
    exact ⟨by simp [slotOf, wins, planned], by simp, fun name => by simp [wins]⟩

/-- A binding for an image is written to the containers with the image that have no setting for its kind, by
induction on the containers. -/
theorem Bound.applyImage (podName : Str) {state : BindState}
    (bound : Bound whole found noWild pod before (pod, state)) :
    Bound whole (found ++ [(binding, profile)]) noWild pod before
      (pod, (List.range state.containers.length).foldl (bindImage podName binding profile) state) := by
  have each := @bind_slotOf whole found binding profile kinded ofKind specific
  have own := @bindImage_slot podName binding profile
  have nodup := @List.nodup_range state.containers.length
  have length : state.containers.length = before.length := by rw [bound.containers, length_map]
  -- Where there is no container, nothing happens.
  have indexes : ∀ raises : Slot → Prop, ¬raises (slotOf whole found noWild none) →
      ((∃ index ∈ List.range state.containers.length, raises (state.slot index)) ↔
        ∃ container ∈ before, raises (slotOf whole found noWild (some container))) := by
    intro raises nobody
    simp only [bound.slots, length, mem_range]
    constructor
    · rintro ⟨index, inRange, raised⟩
      rw [getElem?_eq_getElem inRange] at raised
      exact ⟨_, getElem_mem inRange, raised⟩
    · rintro ⟨container, member, raised⟩
      obtain ⟨index, inRange, rfl⟩ := getElem_of_mem member
      exact ⟨index, inRange, by rwa [getElem?_eq_getElem inRange]⟩
  have wildcards := List.foldlRecOn (motive := fun after => after.wildcards = state.wildcards)
    (List.range state.containers.length) (bindImage podName binding profile) rfl
    fun after same index _ => (bindImage_flags after index []).2.2.trans same
  refine ⟨fun index => ?_, fun kind => ?_, bound.context, ?_, fun name => ?_⟩
  · rw [foldl_view own nodup, bound.slots]
    by_cases inRange : index < before.length
    · rw [if_pos (mem_range.mpr (length ▸ inRange)), getElem?_eq_getElem inRange]
      exact (each _).1
    · rw [List.getElem?_eq_none (not_lt.mp inRange)]
      exact ite_self _
  · rw [wildcards, wildcardWinner_append, if_neg fun isWild => specific isWild.2, Option.or_none]
    exact bound.wildcards kind
  · have changes := @foldl_flag _ _ _ _ _ _ own nodup (fun state => state.podChanged = true)
      (Slot.Changes binding profile) (fun state index => (bindImage_flags state index []).1) state
    rw [changes, bound.reported, indexes _ (by simp [Slot.Changes, slotOf, Slot.hit])]
    simp only [fun container => (each container).2.1, and_or_left, exists_or]
    rw [or_right_comm]
  · have names := @foldl_flag _ _ _ _ _ _ own nodup (fun state => name ∈ state.applied)
      (Slot.Names binding name) (fun state index => (bindImage_flags state index name).2.1) state
    rw [names, bound.applied, indexes _ (by simp [Slot.Names, slotOf, Slot.hit])]
    simp only [fun container => (each container).2.2, and_or_left, exists_or]
    rw [or_right_comm]

end

/-- A wildcard binding is kept for later. -/
theorem Bound.keep (podName : Str) {state : BindState} (isWild : binding.image = selectAllContainersImage)
    (bound : Bound whole found noWild pod before (pod, state)) :
    Bound whole (found ++ [(binding, profile)]) noWild pod before
      (pod, applyBinding podName state binding profile) := by
  have wins : ∀ kind image, imageWinner (found ++ [(binding, profile)]) kind image = imageWinner found kind image :=
    fun _ _ => imageWinner_append_later fun image specific => absurd (image.symm.trans isWild) specific
  have planned : ∀ container, planFor whole (found ++ [(binding, profile)]) noWild container =
      planFor whole found noWild container := by
    intro container
    funext kind
    rw [planFor_noWild, planFor_noWild, wins]
  have keeps : ∀ wildcards warnings,
      (∀ kind, wildcards kind = wildcardWinner (found ++ [(binding, profile)]) kind) →
      Bound whole (found ++ [(binding, profile)]) noWild pod before (pod, { state with wildcards, warnings }) := by
    intro wildcards warnings winners
    refine ⟨fun index => ?_, winners, bound.context, ?_, ?_⟩
    · simp only [slotOf, wins, planned]
      exact bound.slots index
    · simpa only [planned] using bound.reported
    · simpa only [wins] using bound.applied
  rw [applyBinding, if_pos isWild]
  cases first : state.wildcards binding.kind with
  | none =>
    refine keeps _ _ fun kind => ?_
    rw [wildcardWinner_append, ← bound.wildcards]
    by_cases ofKind : kind = binding.kind
    · simp [ofKind, first, isWild]
    · simp [ofKind, Ne.symm ofKind]
  | some winner =>
    have winners : ∀ kind, state.wildcards kind = wildcardWinner (found ++ [(binding, profile)]) kind := by
      intro kind
      rw [wildcardWinner_append, ← bound.wildcards]
      by_cases ofKind : binding.kind = kind
      · simp [← ofKind, first]
      · simp [ofKind]
    dsimp only
    unfold warn
    split
    · exact keeps _ _ winners
    · exact keeps _ _ winners

theorem Bound.applyBindings {cluster : Cluster} {podName : Str} {bindings : List ProfileBinding} {final : BindState}
    (ok : applyBindings cluster pod podName bindings (newBindState before) = some final) :
    Bound whole (eligible cluster pod bindings) noWild pod before (pod, final) := by
  rw [applyBindings_eq ok]
  have kinds : KindedFound (eligible cluster pod bindings) :=
    fun found member => getProfile_kind (mem_eligible.mp member).2.2
  revert kinds
  generalize eligible cluster pod bindings = found
  intro kinds
  induction found using List.reverseRecOn with
  | nil => exact bound_new whole pod before
  | append_singleton found last ih =>
    have kinded : KindedFound found := fun other member => kinds other (mem_append_left _ member)
    rw [foldl_append]
    by_cases isWild : last.1.image = selectAllContainersImage
    · exact (ih kinded).keep podName isWild
    · have applied :=
        (ih kinded).applyImage kinded (kinds last (mem_append_right _ (mem_singleton_self last))) isWild podName
      rwa [foldl_cons, foldl_nil, applyBinding, if_neg isWild]

variable {bound : Nat → Option ProfileBinding} {meant : Container → Bool} {containers : List Container}

theorem bindRest_getElem? (index : Nat) : (bindRest profile bound meant containers).1[index]? =
    containers[index]?.map fun container =>
      if (bound index).isNone && meant container then (addSecurityContext container profile).1 else container := by
  simp only [bindRest, map_map, getElem?_map, getElem?_zipIdx, Option.map_map]
  cases containers[index]? with
  | none => rfl
  | some container =>
    simp only [Option.map_some, comp_apply, Nat.zero_add]
    split <;> rfl

theorem bindRest_changed : (bindRest profile bound meant containers).2 = true ↔
    ∃ index container, containers[index]? = some container ∧ ((bound index).isNone && meant container) = true ∧
      (addSecurityContext container profile).2 = true := by
  simp only [bindRest, any_map, any_eq_true, comp_apply]
  constructor
  · rintro ⟨⟨container, index⟩, member, changes⟩
    dsimp only at changes
    split at changes
    · next chosen => exact ⟨index, container, mk_mem_zipIdx_iff_getElem?.mp member, chosen, changes⟩
    · cases changes
  · rintro ⟨index, container, isContainer, chosen, changes⟩
    refine ⟨(container, index), mk_mem_zipIdx_iff_getElem?.mpr isContainer, ?_⟩
    dsimp only
    rw [if_pos chosen]
    exact changes

def restOf (whole : Bool) (profile : BindProfile) (state : BindState) : List Container × Bool :=
  bindRest profile (state.boundBy profile.kind) (fun container => !whole || hasContainerContext container profile)
    state.containers

/-- What both ways of applying a wildcard binding have in common. -/
def applyWild (whole : Bool) (pod : Pod) (profile : BindProfile) (state : BindState) : Pod × BindState :=
  let changedPod := if whole then addPodSecurityContext pod profile else (pod, false)
  let changes := restOf whole profile state
  (changedPod.1, { state with
    containers := changes.1, podChanged := state.podChanged || changedPod.2 || changes.2 })

theorem applyWild_true : applyWild true = applyWildcardProfile := by
  funext pod profile state
  simp [applyWild, restOf, applyWildcardProfile]

theorem applyWild_false : applyWild false = applyWildcardProfileToContainers := by
  funext pod profile state
  simp [applyWild, restOf, applyWildcardProfileToContainers]

/-- The wildcard binding is for the container: none for its image is, and if the pod is bound as a whole, then the
container has a setting of its own. -/
def leftToWildcard (whole : Bool) (found : List Found) (kind : ProfileBindingKind) (container : Container) : Bool :=
  (imageWinner found kind container.image).isNone && (!whole || (container.setting kind).isSome)

theorem planFor_insert (container : Container) :
    planFor whole found (update wild winner.2.kind (some winner)) container =
      if leftToWildcard whole found winner.2.kind container then
        update (planFor whole found wild container) winner.2.kind (some winner.2)
      else planFor whole found wild container := by
  funext kind
  by_cases same : kind = winner.2.kind
  · subst same
    cases byImage : imageWinner found winner.2.kind container.image with
    | some other => simp [planFor, leftToWildcard, byImage]
    | none =>
      by_cases meant : (!whole || (container.setting winner.2.kind).isSome) = true
      · simp [planFor, leftToWildcard, byImage, meant]
      · simp [planFor, leftToWildcard, byImage, meant]
  · split <;> simp [planFor, same]

theorem podPlan_insert : podPlan whole (update wild winner.2.kind (some winner)) =
    if whole then update (podPlan whole wild) winner.2.kind (some winner.2) else podPlan whole wild := by
  funext kind
  cases whole with
  | false => rfl
  | true => by_cases same : kind = winner.2.kind <;> simp [podPlan, same]

section

variable (kinded : KindedFound found) (wildKinded : ∀ kind winner, wild kind = some winner → winner.2.kind = kind)
  (free : wild winner.2.kind = none)
include wildKinded free

theorem fill_pod (context : Option SecurityContext) :
    (if whole then addPodSecurityContext { pod with
      securityContext := setAll (podPlan whole wild) context } winner.2
        else ({ pod with securityContext := setAll (podPlan whole wild) context }, false)).1 =
      { pod with securityContext := setAll (podPlan whole (update wild winner.2.kind (some winner))) context } ∧
    (setAll (podPlan whole (update wild winner.2.kind (some winner))) context ≠ context ↔
      setAll (podPlan whole wild) context ≠ context ∨
        (if whole then addPodSecurityContext { pod with
          securityContext := setAll (podPlan whole wild) context } winner.2
          else ({ pod with securityContext := setAll (podPlan whole wild) context }, false)).2 = true) := by
  rw [podPlan_insert]
  cases whole with
  | false => simp
  | true =>
    have unwritten : podPlan true wild winner.2.kind = none := by simp [podPlan, free]
    have podKinded : Kinded (podPlan true wild) := kinded_podPlan wildKinded
    rw [if_pos rfl, if_pos rfl, ne_eq, setAll_insert_eq_iff podKinded unwritten,
      setAll_insert podKinded unwritten, not_and_or]
    exact ⟨rfl, or_congr_right decide_eq_true_iff.symm⟩

include kinded

/-- A wildcard binding, as one container sees it. -/
theorem fill_container (container : Container) :
    container.withAll (planFor whole found (update wild winner.2.kind (some winner)) container) =
        (if leftToWildcard whole found winner.2.kind container then
          (addSecurityContext (container.withAll (planFor whole found wild container)) winner.2).1
        else container.withAll (planFor whole found wild container)) ∧
      (container.withAll (planFor whole found (update wild winner.2.kind (some winner)) container) ≠ container ↔
        container.withAll (planFor whole found wild container) ≠ container ∨
          leftToWildcard whole found winner.2.kind container = true ∧
            (addSecurityContext (container.withAll (planFor whole found wild container)) winner.2).2 = true) := by
  rw [planFor_insert]
  by_cases left : leftToWildcard whole found winner.2.kind container = true
  · have byImage := Option.isNone_iff_eq_none.mp (Bool.and_eq_true_iff.mp left).1
    have written :=
      @withAll_insert _ winner.2 container (@kinded_planFor whole found wild kinded wildKinded container)
      (by simp [planFor, byImage, free])
    rw [if_pos left, if_pos left, and_iff_right left]
    exact written
  · simp [left]

/-- A wildcard binding fills what the containers and the pod leave open for its kind, and nothing else. -/
theorem Bound.fill (bound : Bound whole found wild pod before current) :
    Bound whole found (update wild winner.2.kind (some winner)) pod before
      (applyWild whole current.1 winner.2 { current.2 with applied := current.2.applied ++ [winner.1.name] }) := by
  have each := @fill_container whole found wild winner kinded wildKinded free
  have ofPod := @fill_pod whole wild pod winner wildKinded free pod.securityContext
  rw [← bound.context] at ofPod
  have chosen : ∀ index container, before[index]? = some container →
      ((current.2.boundBy winner.2.kind index).isNone &&
        (!whole || hasContainerContext (container.withAll (planFor whole found wild container)) winner.2)) =
      leftToWildcard whole found winner.2.kind container := by
    intro index container isContainer
    have boundBy : current.2.boundBy winner.2.kind index = _ :=
      congrFun (congrArg Prod.snd (bound.slots index)) winner.2.kind
    rw [boundBy, isContainer, leftToWildcard, hasContainerContext_eq]
    cases byImage : imageWinner found winner.2.kind container.image with
    | some other => simp [slotOf, byImage]
    | none =>
      have same := @settingOf_setAll_free container.securityContext winner.2.kind _
        (@kinded_planFor whole found wild kinded wildKinded container) (by simp [planFor, byImage, free])
      simp only [slotOf, Option.bind_some, byImage, Option.map_none, Option.isNone_none, Bool.true_and]
      exact congrArg (fun setting => !whole || setting.isSome) same
  have changes : (restOf whole winner.2 current.2).2 = true ↔ ∃ container ∈ before,
      leftToWildcard whole found winner.2.kind container = true ∧
        (addSecurityContext (container.withAll (planFor whole found wild container)) winner.2).2 = true := by
    rw [restOf, bindRest_changed, bound.containers]
    simp only [getElem?_map, Option.map_eq_some_iff]
    constructor
    · rintro ⟨index, _, ⟨container, isContainer, rfl⟩, isChosen, changed⟩
      exact ⟨container, mem_of_getElem? isContainer, chosen index container isContainer ▸ isChosen, changed⟩
    · rintro ⟨container, member, isLeft, changed⟩
      obtain ⟨index, isContainer⟩ := getElem?_of_mem member
      exact ⟨index, _, ⟨container, isContainer, rfl⟩, (chosen index container isContainer).trans isLeft, changed⟩
  refine ⟨fun index => Prod.ext ?_ ?_, bound.wildcards, ofPod.1, ?_, fun name => ?_⟩
  · show (restOf whole winner.2 current.2).1[index]? = _
    rw [restOf, bindRest_getElem?, bound.containers, getElem?_map, slotOf]
    cases isContainer : before[index]? with
    | none => rfl
    | some container =>
      simp only [Option.map_some, (each container).1]
      rw [chosen index container isContainer]
  · show (current.2.slot index).2 = _
    rw [bound.slots]
    rfl
  · show (current.2.podChanged || _ || (restOf whole winner.2 current.2).2) = true ↔ _
    rw [Bool.or_eq_true, Bool.or_eq_true, bound.reported, changes, ofPod.2]
    simp only [fun container => (each container).2, and_or_left, exists_or]
    exact iff_of_eq (by ac_rfl)
  · show name ∈ current.2.applied ++ [winner.1.name] ↔ _
    rw [mem_append, mem_singleton, bound.applied, or_assoc]
    refine or_congr_right ⟨?_, ?_⟩
    · rintro (⟨kind, other, wins, named⟩ | rfl)
      · refine ⟨kind, other, ?_, named⟩
        rw [update_of_ne, wins]
        rintro rfl
        cases free.symm.trans wins
      · exact ⟨_, winner, update_self .., rfl⟩
    · rintro ⟨kind, other, wins, named⟩
      by_cases same : kind = winner.2.kind
      · rw [same, update_self] at wins
        exact Or.inr (Option.some.inj wins ▸ named.symm)
      · rw [update_of_ne same] at wins
        exact Or.inl ⟨kind, other, wins, named⟩

def wildOf (kinds : List ProfileBindingKind) (found : List Found) (kind : ProfileBindingKind) : Option Found :=
  if kind ∈ kinds then wildcardWinner found kind else none

omit wildKinded free in
/-- The wildcard bindings are applied kind by kind. Each kind is filled once, so their order does not matter. -/
theorem Bound.applyWildcards {kinds : List ProfileBindingKind} (nodup : kinds.Nodup) {state : BindState}
    (bound : Bound whole found noWild pod before (pod, state)) :
    Bound whole found (wildOf kinds found) pod before (applyWildcards (applyWild whole) kinds pod state) := by
  have wildKinded : ∀ kinds kind winner, wildOf kinds found kind = some winner → winner.2.kind = kind := by
    intro kinds kind winner wins
    exact wildcardWinner_profile kinded (Option.ite_none_right_eq_some.mp wins).2
  induction kinds using List.reverseRecOn with
  | nil => exact bound
  | append_singleton kinds kind ih =>
    obtain ⟨nodupKinds, _, disjoint⟩ := nodup_append.mp nodup
    have new : kind ∉ kinds := fun member => disjoint kind member kind (mem_singleton_self kind) rfl
    have before := ih nodupKinds
    rw [Binding.applyWildcards, foldl_append, foldl_cons, foldl_nil, applyWildcard]
    rw [Binding.applyWildcards] at before
    rw [before.wildcards]
    have same : ∀ other, other ≠ kind → wildOf (kinds ++ [kind]) found other = wildOf kinds found other := by
      intro other different
      simp [wildOf, different]
    cases wins : wildcardWinner found kind with
    | none =>
      have unchanged : wildOf (kinds ++ [kind]) found = wildOf kinds found := by
        funext other
        by_cases here : other = kind
        · simp [wildOf, here, wins]
        · exact same other here
      rw [unchanged]
      exact before
    | some winner =>
      obtain rfl := wildcardWinner_profile kinded wins
      have inserted : wildOf (kinds ++ [winner.2.kind]) found = update (wildOf kinds found) winner.2.kind
          (some winner) := by
        funext other
        by_cases here : other = winner.2.kind
        · simp [wildOf, here, wins]
        · rw [same other here, update_of_ne here]
      rw [inserted]
      exact before.fill kinded (wildKinded kinds) (if_neg new)

end

end bound

end SecurityProfiles.Binding
