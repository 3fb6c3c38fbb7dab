import SecurityProfiles.Binding.Written

namespace SecurityProfiles.Binding

open List

section result

/-- The profile of a kind for a container, once all bindings are applied. -/
def profileFor (whole : Bool) (found : List Found) : Container → ProfileBindingKind → Option BindProfile :=
  planFor whole found (wildcardWinner found)

def bindOne (whole : Bool) (found : List Found) (container : Container) : Container :=
  container.withAll (profileFor whole found container)

abbrev podProfile (found : List Found) : ProfileBindingKind → Option BindProfile :=
  podPlan true (wildcardWinner found)

def appliedNames (found : List Found) (images : List Str) : List Str :=
  let kinds : List ProfileBindingKind := [.seccompProfile, .selinuxProfile, .appArmorProfile]
  (images.flatMap fun image => kinds.filterMap fun kind => (imageWinner found kind image).map (·.1.name)) ++
    kinds.filterMap fun kind => (wildcardWinner found kind).map (·.1.name)

/-- The pod as it is created. -/
def boundPod (found : List Found) (pod : Pod) : Pod :=
  { pod with
    annotations :=
      (setAppliedBindings pod
        (appliedNames found ((pod.initContainers ++ pod.containers).map (·.image)))).1.annotations
    securityContext := setAll (podProfile found) pod.securityContext
    initContainers := pod.initContainers.map (bindOne true found)
    containers := pod.containers.map (bindOne true found) }

def boundEphemeral (found : List Found) (oldPod pod : Pod) : Pod :=
  { pod with ephemeralContainers := pod.ephemeralContainers.map fun container =>
      if isNew oldPod container then bindOne false found container else container }

variable {whole : Bool} {found : List Found} {container : Container} {kind : ProfileBindingKind} {image : Str}

section

variable (kinded : KindedFound found)
include kinded

theorem kinded_podProfile : Kinded (podProfile found) := kinded_podPlan fun _ _ => wildcardWinner_profile kinded

theorem kinded_profileFor : Kinded (profileFor whole found container) :=
  kinded_planFor kinded (fun _ _ => wildcardWinner_profile kinded) container

/-- What is meant for a container does not change when it is bound. -/
theorem profileFor_bindOne :
    profileFor whole found (bindOne whole found container) = profileFor whole found container := by
  have kinds := @kinded_profileFor whole found container kinded
  funext kind
  have sameImage : (bindOne whole found container).image = container.image := rfl
  simp only [profileFor, planFor, sameImage]
  cases byImage : imageWinner found kind container.image with
  | some winner => rw [Option.some_or, Option.some_or]
  | none =>
    rw [Option.none_or, Option.none_or]
    cases whole with
    | false => rfl
    | true =>
      have sameSetting : ((bindOne true found container).setting kind).isSome =
          (container.setting kind).isSome := by
        cases planned : profileFor true found container kind with
        | none =>
          have same := @settingOf_setAll_free container.securityContext kind _ kinds planned
          exact congrArg Option.isSome same
        | some profile =>
          obtain ⟨value, isSet⟩ :=
            (@settingOf_setAll_set profile container.securityContext kind _ kinds planned).isSome
          have before : (container.setting kind).isSome = true := by
            rw [profileFor, planFor, byImage, Option.none_or] at planned
            by_contra without
            simp [without] at planned
          rw [before]
          exact congrArg Option.isSome isSet
      rw [sameSetting]

theorem bindOne_bindOne :
    bindOne whole found (bindOne whole found container) = bindOne whole found container := by
  have same := @setAll_setAll container.securityContext _ (@kinded_profileFor whole found container kinded)
  rw [bindOne, profileFor_bindOne kinded]
  exact congrArg (fun context => { container with securityContext := context }) same

end

end result

section run

variable {cluster : Cluster} {bindings : List ProfileBinding} {pod : Pod} {podName : Str} {before : List Container}
  {state : BindState} {kinds : List ProfileBindingKind} {whole : Bool}

theorem kindedFound_eligible : KindedFound (eligible cluster pod bindings) := fun _ member =>
  getProfile_kind (mem_eligible.mp member).2.2

theorem mem_kinds_of_profile (perm : AllKinds kinds) {kind : ProfileBindingKind}
    {winner : Found} (ofKind : winner.2.kind = kind) : kind ∈ kinds :=
  ofKind ▸ mem_kinds perm winner.2

variable {found : List Found}

structure Outputs (whole : Bool) (found : List Found) (pod : Pod) (before : List Container)
    (after : Pod × BindState) : Prop where
  containers : after.2.containers = before.map (bindOne whole found)
  changedPod : after.1 = { pod with
    securityContext := setAll (podPlan whole (wildcardWinner found)) pod.securityContext }
  reported : after.2.podChanged = true ↔ (∃ container ∈ before, bindOne whole found container ≠ container) ∨
    setAll (podPlan whole (wildcardWinner found)) pod.securityContext ≠ pod.securityContext
  applied : ∀ name, name ∈ after.2.applied ↔ name ∈ appliedNames found (before.map (·.image))

theorem mem_appliedNames (kinded : KindedFound found) {images : List Str} {name : Str} :
    name ∈ appliedNames found images ↔
      (∃ image ∈ images, ∃ kind winner, imageWinner found kind image = some winner ∧ winner.1.name = name) ∨
        ∃ kind winner, wildcardWinner found kind = some winner ∧ winner.1.name = name := by
  have every : ∀ kind (winner : Found), winner.2.kind = kind →
      kind ∈ [ProfileBindingKind.seccompProfile, .selinuxProfile, .appArmorProfile] := fun kind winner ofKind =>
    mem_kinds_of_profile (List.Perm.refl _) ofKind
  simp only [appliedNames, mem_append, mem_flatMap, mem_filterMap, Option.map_eq_some_iff]
  refine or_congr ?_ ?_
  · refine exists_congr fun image => and_congr_right fun _ => ?_
    constructor
    · rintro ⟨kind, _, winner, wins, named⟩
      exact ⟨kind, winner, wins, named⟩
    · rintro ⟨kind, winner, wins, named⟩
      exact ⟨kind, every kind winner (imageWinner_kind kinded wins), winner, wins, named⟩
  · constructor
    · rintro ⟨kind, _, winner, wins, named⟩
      exact ⟨kind, winner, wins, named⟩
    · rintro ⟨kind, winner, wins, named⟩
      exact ⟨kind, every kind winner (wildcardWinner_profile kinded wins), winner, wins, named⟩

theorem outputs_run (perm : AllKinds kinds)
    (ok : applyBindings cluster pod podName bindings (newBindState before) = some state) :
    Outputs whole (eligible cluster pod bindings) pod before
      (applyWildcards (applyWild whole) kinds pod state) := by
  have kinded : KindedFound (eligible cluster pod bindings) := kindedFound_eligible
  have bound := (@Bound.applyBindings whole _ _ _ _ _ _ ok).applyWildcards kinded (perm.nodup_iff.mpr (by decide))
  generalize eligible cluster pod bindings = found at bound kinded ⊢
  have every : wildOf kinds found = wildcardWinner found := by
    funext kind
    cases wins : wildcardWinner found kind with
    | none => simp [wildOf, wins]
    | some winner => simp [wildOf, wins, mem_kinds_of_profile perm (wildcardWinner_profile kinded wins)]
  rw [every] at bound
  refine ⟨bound.containers, bound.context, bound.reported, fun name => ?_⟩
  rw [bound.applied, mem_appliedNames kinded]
  exact or_congr_left (by simp only [mem_map, exists_exists_and_eq_and])

end run

section response

variable {cluster : Cluster} {bindings : List ProfileBinding} {pod : Pod} {podName name : Str}
  {kinds : List ProfileBindingKind}

/-- The lookup of a binding for the pod failed. -/
def Fails (cluster : Cluster) (labels : Labels) (bindings : List ProfileBinding) : Prop :=
  ∃ binding ∈ bindings, (∀ selector ∈ binding.podSelector, (cluster.selects selector labels).getD false = true) ∧
    getProfile cluster binding = .failed

theorem podMatchesSelector_iff {binding : ProfileBinding} : podMatchesSelector cluster pod binding = true ↔
    ∀ selector ∈ binding.podSelector, (cluster.selects selector pod.labels).getD false = true := by
  unfold podMatchesSelector
  cases binding.podSelector <;> simp

theorem applyBindings_none {state : BindState} : applyBindings cluster pod podName bindings state = none ↔
    Fails cluster pod.labels bindings := by
  simp only [Fails, ← podMatchesSelector_iff]
  fun_induction applyBindings cluster pod podName bindings state with
  | case1 state => simp
  | case2 binding rest state selected failed => simp [selected, failed]
  | case3 binding rest state selected skipped ih => simp [ih, skipped]
  | case4 binding rest state selected profile outcome ih => simp [ih, outcome]
  | case5 binding rest state other ih => simp [ih, other]

/-- The annotation depends on the names that there are, and is reported if it changes. -/
theorem setAppliedBindings_congr {first second : List Str} (same : ∀ name, name ∈ first ↔ name ∈ second) :
    setAppliedBindings pod first = setAppliedBindings pod second := by
  rw [setAppliedBindings, setAppliedBindings, Text.compact_sort_congr same]

variable {applied : List Str} {failed : Prop} {bound : Pod} {response : Response} {found : List Found}

theorem setAppliedBindings_changed :
    (setAppliedBindings pod applied).2 = true ↔ (setAppliedBindings pod applied).1 ≠ pod := by
  constructor
  · intro changed same
    have lookup := setAppliedBindings_lookup pod applied
    rw [same] at lookup
    unfold setAppliedBindings at changed
    dsimp only at changed
    split at changed
    · next nobody =>
        rw [if_pos nobody] at lookup
        rw [lookup] at changed
        cases changed
    · next somebody =>
        rw [if_neg somebody] at lookup
        exact of_decide_eq_true changed lookup
  · intro different
    by_contra unchanged
    exact different (setAppliedBindings_unchanged (Bool.of_not_eq_true unchanged))

/-- The settings of the pod are not part of the annotation. -/
theorem setAppliedBindings_context (context : Option SecurityContext) (applied : List Str) :
    setAppliedBindings { pod with securityContext := context } applied =
      ({ (setAppliedBindings pod applied).1 with securityContext := context },
        (setAppliedBindings pod applied).2) := by
  unfold setAppliedBindings
  dsimp only
  split <;> rfl

theorem setAppliedBindings_eq (applied : List Str) : (setAppliedBindings pod applied).1 =
    { pod with annotations := (setAppliedBindings pod applied).1.annotations } := by
  unfold setAppliedBindings
  dsimp only
  split <;> rfl

theorem setAppliedBindings_eq_iff : (setAppliedBindings pod applied).1 = pod ↔
    (setAppliedBindings pod applied).1.annotations = pod.annotations := by
  constructor
  · intro same
    rw [same]
  · intro same
    rw [setAppliedBindings_eq, same]

/-- What the webhook answers: an error, or the pod as it is to be, if that is not what it was. -/
inductive Answers (failed : Prop) (pod bound : Pod) : Response → Prop where
  | errored (isFailed : failed) : Answers failed pod bound .errored
  | allowed (found : ¬failed) (same : bound = pod) : Answers failed pod bound .allowed
  | patched (found : ¬failed) (different : bound ≠ pod) : Answers failed pod bound (.patched bound)

theorem Answers.unique {first second : Response} (answers : Answers failed pod bound first)
    (other : Answers failed pod bound second) : first = second := by
  cases answers <;> cases other <;> first | rfl | contradiction

theorem Answers.admits {after : Pod} (answers : Answers failed pod bound response)
    (admitted : response.admits pod = some after) : ¬failed ∧ after = bound := by
  cases answers with
  | errored isFailed => cases admitted
  | allowed found same => exact ⟨found, (Option.some.inj admitted).symm.trans same.symm⟩
  | patched found different => exact ⟨found, (Option.some.inj admitted).symm⟩

theorem Answers.congr {failed' : Prop} (answers : Answers failed pod bound response)
    (same : failed ↔ failed') : Answers failed' pod bound response := by
  cases answers with
  | errored isFailed => exact .errored (same.mp isFailed)
  | allowed found isBound => exact .allowed (found ∘ same.mpr) isBound
  | patched found different => exact .patched (found ∘ same.mpr) different

/-- The pod is patched, if it is to be different. -/
theorem answers_ite {flag : Bool} (changed : flag = true ↔ bound ≠ pod) :
    Answers False pod bound (if flag then .patched bound else .allowed) := by
  split
  · next isChanged => exact .patched id (changed.mp isChanged)
  · next isSame => exact .allowed id (not_not.mp (changed.not.mp isSame))

theorem answers_run (perm : AllKinds kinds) (whole : Bool) (containers : List Container) (podName : Str)
    (respond : Pod × BindState → Response) (bound : List Found → Pod)
    (responds : ∀ found after, Outputs whole found pod containers after →
      Answers False pod (bound found) (respond after)) :
    Answers (Fails cluster pod.labels bindings) pod (bound (eligible cluster pod bindings))
      (match applyBindings cluster pod podName bindings (newBindState containers) with
        | none => .errored
        | some state => respond (applyWildcards (applyWild whole) kinds pod state)) := by
  cases ok : applyBindings cluster pod podName bindings (newBindState containers) with
  | none => exact .errored (applyBindings_none.mp ok)
  | some state =>
    have isFound : ¬Fails cluster pod.labels bindings := by
      intro fails
      rw [applyBindings_none.mpr fails] at ok
      cases ok
    exact (responds _ _ (outputs_run perm ok)).congr (iff_of_false id isFound)

theorem map_eq_self_iff {change : Container → Container} {containers : List Container} :
    containers.map change = containers ↔ ∀ container ∈ containers, change container = container := by
  conv_lhs => rhs; rw [← map_id containers]
  exact map_inj_left

theorem boundPod_eq_iff : boundPod found pod = pod ↔
    (∀ container ∈ pod.initContainers ++ pod.containers, bindOne true found container = container) ∧
      setAll (podProfile found) pod.securityContext = pod.securityContext ∧
      (setAppliedBindings pod (appliedNames found ((pod.initContainers ++ pod.containers).map (·.image)))).1 =
      pod := by
  rw [setAppliedBindings_eq_iff, forall_mem_append, ← map_eq_self_iff, ← map_eq_self_iff, boundPod]
  generalize (setAppliedBindings pod
    (appliedNames found ((pod.initContainers ++ pod.containers).map (·.image)))).1.annotations = annotations
  constructor
  · intro same
    exact ⟨⟨congrArg Pod.initContainers same, congrArg Pod.containers same⟩, congrArg Pod.securityContext same,
      congrArg Pod.annotations same⟩
  · rintro ⟨⟨inits, ctrs⟩, context, isAnnotations⟩
    rw [inits, ctrs, context, isAnnotations]

/-- The creation of a pod is refused if a lookup fails. Otherwise the answer leads to the pod with its profiles, and
is a patch only if that is another pod. -/
theorem answers_create (perm : AllKinds kinds) (notWindows : pod.isWindows = false) :
    Answers (Fails cluster pod.labels (sortBindings bindings)) pod
      (boundPod (eligible cluster pod (sortBindings bindings)) pod)
        (updatePod cluster kinds bindings name .create pod) := by
  unfold updatePod
  rw [notWindows, ← applyWild_true]
  simp only [Bool.false_eq_true, if_false]
  refine answers_run perm true (pod.initContainers ++ pod.containers) _ (fun after =>
    if after.2.podChanged || (setAppliedBindings after.1 after.2.applied).2 then
      .patched { (setAppliedBindings after.1 after.2.applied).1 with
        initContainers := after.2.containers.take pod.initContainers.length
        containers := after.2.containers.drop pod.initContainers.length }
    else .allowed) (boundPod · pod) fun found after outputs => ?_
  have annotated := @setAppliedBindings_context pod (setAll (podProfile found) pod.securityContext)
    (appliedNames found ((pod.initContainers ++ pod.containers).map (·.image)))
  have bound : { (setAppliedBindings after.1 after.2.applied).1 with
      initContainers := after.2.containers.take pod.initContainers.length
      containers := after.2.containers.drop pod.initContainers.length } = boundPod found pod := by
    rw [setAppliedBindings_congr outputs.applied, outputs.changedPod, outputs.containers, ← map_take, ← map_drop,
      take_left, drop_left, annotated, setAppliedBindings_eq]
    rfl
  dsimp only
  rw [bound]
  refine answers_ite ?_
  rw [Bool.or_eq_true, outputs.reported, setAppliedBindings_congr outputs.applied, outputs.changedPod, annotated,
    setAppliedBindings_changed, ne_eq (boundPod _ _), boundPod_eq_iff, not_and_or, not_and_or, or_assoc]
  push Not
  rfl

theorem putNew_map {oldPod : Pod} (change : Container → Container) (containers : List Container) :
    putNew oldPod containers ((containers.filter (isNew oldPod)).map change) =
      containers.map fun container => if isNew oldPod container then change container else container := by
  induction containers with
  | nil => rfl
  | cons first rest ih =>
    by_cases new : isNew oldPod first = true
    · rw [filter_cons_of_pos new, map_cons, putNew, if_pos new, map_cons, if_pos new]
      exact congrArg _ ih
    · have kept : ∀ changed, putNew oldPod (first :: rest) changed = first :: putNew oldPod rest changed := by
        intro changed
        cases changed <;> simp [putNew, new]
      rw [filter_cons_of_neg new, kept, map_cons, if_neg new, ih]

/-- Of a pod that gets ephemeral containers, only the new ones are bound. -/
theorem answers_addEphemeral (perm : AllKinds kinds) (notWindows : pod.isWindows = false) (oldPod : Pod) :
    Answers (Fails cluster pod.labels (sortBindings bindings)) pod
      (boundEphemeral (eligible cluster pod (sortBindings bindings)) oldPod pod)
      (updatePod cluster kinds bindings name (.addEphemeral oldPod) pod) := by
  unfold updatePod
  rw [notWindows, ← applyWild_false]
  simp only [Bool.false_eq_true, if_false]
  refine answers_run perm false (newEphemeralContainers pod oldPod) _ (fun after =>
    if after.2.podChanged then
      .patched { after.1 with ephemeralContainers := putNew oldPod pod.ephemeralContainers after.2.containers }
    else .allowed) (boundEphemeral · oldPod pod) fun found after outputs => ?_
  have samePod : after.1 = pod := outputs.changedPod
  have bound : { after.1 with ephemeralContainers := putNew oldPod pod.ephemeralContainers after.2.containers } =
      boundEphemeral found oldPod pod := by
    rw [samePod, outputs.containers, newEphemeralContainers, putNew_map, boundEphemeral]
  have same : boundEphemeral found oldPod pod = pod ↔
      ∀ container ∈ newEphemeralContainers pod oldPod, bindOne false found container = container := by
    refine Iff.trans ⟨congrArg Pod.ephemeralContainers, fun same => ?_⟩ (map_eq_self_iff.trans ?_)
    · exact congrArg (fun containers => { pod with ephemeralContainers := containers }) same
    · simp only [newEphemeralContainers, mem_filter, and_imp]
      refine forall₂_congr fun container _ => ?_
      by_cases new : isNew oldPod container = true <;> simp [new]
  dsimp only
  rw [bound]
  refine answers_ite ?_
  rw [outputs.reported, ne_eq (boundEphemeral _ _ _), same]
  push Not
  exact or_iff_left fun changed => changed rfl

/-- What the webhook makes of a pod. -/
def boundBy (request : Request) (found : List Found) (pod : Pod) : Pod :=
  if pod.isWindows then pod
  else
    match request with
    | .create => boundPod found pod
    | .addEphemeral oldPod => boundEphemeral found oldPod pod
    | .other => pod

theorem boundBy_windows {request : Request} (windows : pod.isWindows = true) :
    boundBy request found pod = pod := if_pos windows

def Rejects (cluster : Cluster) (request : Request) (bindings : List ProfileBinding) (pod : Pod) : Prop :=
  pod.isWindows = false ∧ request ≠ .other ∧ Fails cluster pod.labels bindings

theorem answers_updatePod (perm : AllKinds kinds) (request : Request) :
    Answers (Rejects cluster request (sortBindings bindings) pod) pod
      (boundBy request (eligible cluster pod (sortBindings bindings)) pod)
        (updatePod cluster kinds bindings name request pod) := by
  by_cases windows : pod.isWindows = true
  · have allowed : updatePod cluster kinds bindings name request pod = .allowed := if_pos windows
    rw [allowed, boundBy_windows windows]
    refine .allowed (fun rejects => ?_) rfl
    exact Bool.false_ne_true (rejects.1.symm.trans windows)
  · have notWindows := Bool.of_not_eq_true windows
    unfold boundBy
    rw [if_neg windows]
    cases request with
    | create =>
      refine (answers_create perm notWindows).congr
        ⟨fun fails => ⟨notWindows, ?_, fails⟩, fun rejects => rejects.2.2⟩
      exact Request.noConfusion
    | addEphemeral oldPod =>
      refine (answers_addEphemeral perm notWindows oldPod).congr
        ⟨fun fails => ⟨notWindows, ?_, fails⟩, fun rejects => rejects.2.2⟩
      exact Request.noConfusion
    | other =>
      rw [updatePod, if_neg windows]
      exact .allowed (fun rejects => rejects.2.1 rfl) rfl

end response

section order

/-- Bindings of one namespace have different names, so that their order is determined. -/
theorem sortBindings_perm {bindings bindings' : List ProfileBinding} (reordered : bindings'.Perm bindings)
    (identified : ∀ first ∈ bindings, ∀ second ∈ bindings, first.name = second.name → first = second) :
    sortBindings bindings' = sortBindings bindings := by
  have isPerm : (sortBindings bindings').Perm (sortBindings bindings) :=
    (perm_insertionSort _ _).trans (reordered.trans (perm_insertionSort _ _).symm)
  refine isPerm.eq_of_pairwise ?_ (sortBindings_sorted bindings') (sortBindings_sorted bindings)
  intro first second isFirst isSecond firstBefore secondBefore
  have inFirst := reordered.mem_iff.mp ((perm_insertionSort _ _).mem_iff.mp isFirst)
  have inSecond := (perm_insertionSort _ _).mem_iff.mp isSecond
  refine identified first inFirst second inSecond ?_
  rcases firstBefore with earlier | ⟨_, firstName⟩
  · rcases secondBefore with later | ⟨sameTime, _⟩ <;> omega
  · rcases secondBefore with later | ⟨_, secondName⟩
    · omega
    · exact le_antisymm firstName secondName

end order

section twice

variable {found : List Found} {pod : Pod}

theorem setAppliedBindings_annotations {pod pod' : Pod} (same : pod'.annotations = pod.annotations)
    (applied : List Str) :
    (setAppliedBindings pod' applied).1.annotations = (setAppliedBindings pod applied).1.annotations := by
  unfold setAppliedBindings
  dsimp only
  rw [same]
  split <;> rfl

theorem setAppliedBindings_twice (applied : List Str) :
    (setAppliedBindings (setAppliedBindings pod applied).1 applied).1.annotations =
      (setAppliedBindings pod applied).1.annotations := by
  rw [← setAppliedBindings_eq_iff]
  apply setAppliedBindings_unchanged
  have lookup := setAppliedBindings_lookup pod applied
  generalize (setAppliedBindings pod applied).1 = written at lookup ⊢
  unfold setAppliedBindings
  dsimp only
  split
  · next nobody =>
      rw [lookup, if_pos nobody]
      rfl
  · next somebody =>
      rw [lookup, if_neg somebody]
      exact decide_eq_false (not_not.mpr rfl)

theorem boundPod_boundPod (kinded : KindedFound found) :
    boundPod found (boundPod found pod) = boundPod found pod := by
  have images : ((boundPod found pod).initContainers ++ (boundPod found pod).containers).map (·.image) =
      (pod.initContainers ++ pod.containers).map (·.image) := by
    rw [boundPod, map_append, map_append, map_map, map_map]
    rfl
  refine boundPod_eq_iff.mpr ⟨fun container member => ?_, setAll_setAll (kinded_podProfile kinded), ?_⟩
  · rw [boundPod, ← map_append] at member
    obtain ⟨original, _, rfl⟩ := mem_map.mp member
    exact bindOne_bindOne kinded
  · rw [images, setAppliedBindings_eq_iff]
    have written := @setAppliedBindings_twice pod
      (appliedNames found ((pod.initContainers ++ pod.containers).map (·.image)))
    have same : (boundPod found pod).annotations = (setAppliedBindings pod
      (appliedNames found ((pod.initContainers ++ pod.containers).map (·.image)))).1.annotations := rfl
    rw [setAppliedBindings_annotations same, written, same]

theorem boundEphemeral_boundEphemeral (kinded : KindedFound found) (oldPod : Pod) :
    boundEphemeral found oldPod (boundEphemeral found oldPod pod) = boundEphemeral found oldPod pod := by
  rw [boundEphemeral, boundEphemeral, map_map]
  congr 1
  refine map_congr_left fun container _ => ?_
  by_cases new : isNew oldPod container = true
  · have stillNew : isNew oldPod (bindOne false found container) = true := new
    rw [Function.comp_apply, if_pos new, if_pos stillNew, bindOne_bindOne kinded]
  · rw [Function.comp_apply, if_neg new, if_neg new]

theorem boundBy_boundBy (kinded : KindedFound found) (request : Request) :
    boundBy request found (boundBy request found pod) = boundBy request found pod := by
  by_cases windows : pod.isWindows = true
  · rw [boundBy_windows windows, boundBy_windows windows]
  · cases request with
    | create =>
      have isBound : boundBy .create found pod = boundPod found pod := if_neg windows
      rw [isBound]
      exact (if_neg windows).trans (boundPod_boundPod kinded)
    | addEphemeral oldPod =>
      have isBound : boundBy (.addEphemeral oldPod) found pod = boundEphemeral found oldPod pod := if_neg windows
      rw [isBound]
      exact (if_neg windows).trans (boundEphemeral_boundEphemeral kinded oldPod)
    | other =>
      have isBound : boundBy .other found pod = pod := if_neg windows
      rw [isBound, isBound]

end twice

section labels

variable {cluster : Cluster} {bindings : List ProfileBinding} {pod : Pod} {found : List Found} {request : Request}

theorem boundBy_labels : (boundBy request found pod).labels = pod.labels := by
  unfold boundBy
  split
  · rfl
  · cases request <;> rfl

theorem boundBy_isWindows : (boundBy request found pod).isWindows = pod.isWindows := by
  unfold boundBy
  split
  · rfl
  · cases request <;> rfl

theorem eligible_boundBy :
    eligible cluster (boundBy request found pod) bindings = eligible cluster pod bindings := by
  unfold eligible podMatchesSelector
  rw [boundBy_labels]

theorem rejects_boundBy : Rejects cluster request bindings (boundBy request found pod) =
    Rejects cluster request bindings pod := by
  rw [Rejects, Rejects, boundBy_labels, boundBy_isWindows]

end labels

section frame

/-- The settings without those that the webhook is for: no SELinux options are the same as empty ones. -/
def unprofiled (context : Option SecurityContext) : SecurityContext :=
  let context := context.getD .empty
  { context with
    seccompProfile := none
    selinuxOptions := some { context.selinuxOptions.getD ⟨[], [], [], []⟩ with type := [] }
    appArmorProfile := none }

/-- A container and what became of it, with other profiles at most. -/
structure Container.Reprofiled (before after : Container) : Prop where
  settings : unprofiled after.securityContext = unprofiled before.securityContext
  rest : { after with securityContext := before.securityContext } = before

/-- A pod and what became of it on its creation. -/
structure Pod.Created (before after : Pod) : Prop where
  settings : unprofiled after.securityContext = unprofiled before.securityContext
  initContainers : List.Forall₂ Container.Reprofiled before.initContainers after.initContainers
  containers : List.Forall₂ Container.Reprofiled before.containers after.containers
  annotations : ∀ key ≠ appliedBindings, after.annotations.lookup key = before.annotations.lookup key
  rest : { after with
    securityContext := before.securityContext
    initContainers := before.initContainers
    containers := before.containers
    annotations := before.annotations } = before

/-- A pod and what became of it when ephemeral containers were added. -/
structure Pod.Extended (before oldPod after : Pod) : Prop where
  ephemeralContainers :
    List.Forall₂ (fun container changed => if isNew oldPod container then container.Reprofiled changed
    else changed = container) before.ephemeralContainers after.ephemeralContainers
  rest : { after with ephemeralContainers := before.ephemeralContainers } = before

/-- What a request may change. -/
def Pod.Framed : Request → Pod → Pod → Prop
  | .create, before, after => before.Created after
  | .addEphemeral oldPod, before, after => before.Extended oldPod after
  | .other, before, after => after = before

variable {found : List Found} {pod : Pod} {whole : Bool}

theorem unprofiled_setProfile (context : Option SecurityContext) (profile : BindProfile) :
    unprofiled (some (setProfile context profile)) = unprofiled context := by
  cases profile with
  | seccomp | appArmor => rfl
  | selinux usage =>
    cases context with
    | none => rfl
    | some context =>
      obtain ⟨seccomp, options, appArmor, others⟩ := context
      cases options <;> rfl

theorem unprofiled_setAll (profiles : ProfileBindingKind → Option BindProfile) (context : Option SecurityContext) :
    unprofiled (setAll profiles context) = unprofiled context := by
  have one : ∀ profile context, unprofiled (setIf profile context) = unprofiled context := by
    intro profile context
    cases profile with
    | none => rfl
    | some profile => exact unprofiled_setProfile context profile
  rw [setAll, one, one, one]

theorem reprofiled_bindOne (container : Container) : container.Reprofiled (bindOne whole found container) :=
  ⟨unprofiled_setAll _ _, rfl⟩

theorem Container.Reprofiled.refl (container : Container) : container.Reprofiled container := ⟨rfl, rfl⟩

theorem forall₂_map_same {related : Container → Container → Prop} {change : Container → Container}
    (each : ∀ container, related container (change container)) (containers : List Container) :
    List.Forall₂ related containers (containers.map change) :=
  List.forall₂_map_right_iff.mpr (List.forall₂_same.mpr fun container _ => each container)

theorem created_boundPod : pod.Created (boundPod found pod) where
  settings := unprofiled_setAll _ _
  initContainers := forall₂_map_same reprofiled_bindOne _
  containers := forall₂_map_same reprofiled_bindOne _
  annotations := by
    intro key other
    rw [boundPod]
    unfold setAppliedBindings
    dsimp only
    split
    · exact SortedMap.lookup_erase_ne _ other
    · exact SortedMap.lookup_insert_ne _ _ other
  rest := rfl

theorem extended_boundEphemeral (oldPod : Pod) : pod.Extended oldPod (boundEphemeral found oldPod pod) where
  ephemeralContainers := by
    refine forall₂_map_same (fun container => ?_) _
    by_cases new : isNew oldPod container = true
    · rw [if_pos new, if_pos new]
      exact reprofiled_bindOne container
    · rw [if_neg new, if_neg new]
  rest := rfl

theorem framed_refl (request : Request) : Pod.Framed request pod pod := by
  have same : ∀ containers, List.Forall₂ Container.Reprofiled containers containers := fun containers =>
    List.forall₂_same.mpr fun container _ => .refl container
  cases request with
  | create => exact ⟨rfl, same _, same _, fun _ _ => rfl, rfl⟩
  | addEphemeral oldPod =>
    refine ⟨List.forall₂_same.mpr fun container _ => ?_, rfl⟩
    split
    · exact .refl container
    · rfl
  | other => rfl

theorem framed_boundBy (request : Request) : Pod.Framed request pod (boundBy request found pod) := by
  unfold boundBy
  split
  · exact framed_refl request
  · cases request with
    | create => exact created_boundPod
    | addEphemeral oldPod => exact extended_boundEphemeral oldPod
    | other => rfl

end frame

/-- The answer does not depend on the order of the bindings and of the kinds, and the pod that is admitted differs
from the one asked for in its profiles at most. Asked about that one, the webhook has nothing to change. -/
theorem webhook_idempotent {cluster : Cluster} {kinds kinds' : List ProfileBindingKind}
    {bindings bindings' : List ProfileBinding} {name : Str} {request : Request} {pod : Pod}
    (perm : kinds.Perm [.seccompProfile, .selinuxProfile, .appArmorProfile])
    (perm' : kinds'.Perm [.seccompProfile, .selinuxProfile, .appArmorProfile]) (reordered : bindings'.Perm bindings)
    (identified : ∀ first ∈ bindings, ∀ second ∈ bindings, first.name = second.name → first = second) :
    updatePod cluster kinds' bindings' name request pod = updatePod cluster kinds bindings name request pod ∧
      ∀ after, (updatePod cluster kinds bindings name request pod).admits pod = some after →
        updatePod cluster kinds' bindings' name request after = .allowed ∧ Pod.Framed request pod after := by
  have answers := @answers_updatePod cluster bindings pod name kinds perm request
  have answers' := @answers_updatePod cluster bindings' pod name kinds' perm' request
  rw [sortBindings_perm reordered identified] at answers'
  refine ⟨answers'.unique answers, fun after admitted => ?_⟩
  obtain ⟨isAdmitted, rfl⟩ := answers.admits admitted
  have again := @answers_updatePod cluster bindings'
    (boundBy request (eligible cluster pod (sortBindings bindings)) pod) name kinds' perm' request
  rw [sortBindings_perm reordered identified, eligible_boundBy, boundBy_boundBy kindedFound_eligible,
    rejects_boundBy] at again
  refine ⟨?_, framed_boundBy request⟩
  generalize updatePod _ _ _ _ _ _ = response at again ⊢
  cases again with
  | errored isFailed => exact absurd isFailed isAdmitted
  | allowed _ _ => rfl
  | patched _ different => exact absurd rfl different

/-- A cluster where every profile is installed under its name. -/
def readyCluster : Cluster where
  enabled := fun _ => some true
  lookup := fun binding => .installed binding.profileName
  selects := fun _ _ => some true

def nginxContainer : Container := ⟨"web".toList, "nginx".toList, none, []⟩

def nginxPod (isWindows : Bool) : Pod where
  generateName := "nginx-".toList
  labels := []
  annotations := .empty
  isWindows := isWindows
  securityContext := none
  initContainers := []
  containers := [nginxContainer]
  ephemeralContainers := []
  others := []

def seccompBinding (name image : String) (creationTimestamp : Nat) : ProfileBinding :=
  ⟨name.toList, creationTimestamp, .seccompProfile, name.toList, image.toList, none⟩

theorem nginx_bound_once : ∃ after,
    (updatePod readyCluster [.seccompProfile, .selinuxProfile, .appArmorProfile]
      [seccompBinding "young" "nginx" 2, seccompBinding "old" "*" 1] [] .create
      (nginxPod false)).admits (nginxPod false) = some after ∧ after ≠ nginxPod false ∧
    updatePod readyCluster [.appArmorProfile, .selinuxProfile, .seccompProfile]
      [seccompBinding "old" "*" 1, seccompBinding "young" "nginx" 2] [] .create after = .allowed := by
  have main := @webhook_idempotent readyCluster [.seccompProfile, .selinuxProfile, .appArmorProfile]
    [.appArmorProfile, .selinuxProfile, .seccompProfile]
      [seccompBinding "young" "nginx" 2, seccompBinding "old" "*" 1]
    [seccompBinding "old" "*" 1, seccompBinding "young" "nginx" 2] [] .create (nginxPod false) (List.Perm.refl _)
    (by decide) (by decide) (by decide)
  exact ⟨_, rfl, by decide, (main.2 _ rfl).1⟩

end SecurityProfiles.Binding
