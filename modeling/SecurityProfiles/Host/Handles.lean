import SecurityProfiles.Host.Reconcile

namespace SecurityProfiles.Host

open Faulty

section handles

variable {inv : System → Prop} {fine : NodeStatus → Prop} {profile : AppArmorProfile}

/-- What the operations on a profile have to keep for its reconciles to keep it, given which statuses the profile
has. -/
structure Handles (inv : System → Prop) (fine : NodeStatus → Prop) (profile : AppArmorProfile) : Prop where
  read : ∀ system, inv system → ∀ status, (profile.name.value, status) ∈ system.statuses → fine status
  write : ∀ system status, inv system → fine status → inv (system.putStatus profile.name.value status)
  readLegacy : ∀ system, inv system → ∀ state, system.legacy.lookup profile.name.value = some state →
    ∀ status, fine status → fine { status with state := some state }
  removeLegacy : ∀ system, inv system → inv (system.removeLegacy profile.name.value)
  new : fine ⟨none, false⟩
  state : ∀ status state, fine status → state ≠ .installed → fine { status with state := some state }
  clear : ∀ status, fine status → fine { status with installed := false }
  install : ∀ status, fine status →
    Keeps inv (installProfile profile (status.state = some .installed)) fun result =>
    ∀ updated, result = .ok updated → ∀ status, fine status →
      fine { status with installed := true } ∧ fine { status with state := some .installed }
  remove : ∀ status, fine status → Keeps inv (removeProfile profile status.installed) fun _ => True

theorem keeps_call : Keeps inv call fun _ => True := Keeps.change fun _ kept => kept

namespace Handles

variable (handles : Handles inv fine profile)

include handles

theorem readStatus : Keeps inv (readStatus profile.name.value) fun result =>
    ∀ status, result = some (some status) → fine status := by
  apply Triple.select
  · intro _ _ _ status none
    cases none
  · intro system kept _ answer isAnswer status found
    obtain rfl := Option.some.inj found
    rcases List.mem_cons.mp isAnswer with none | isVersion
    · cases none
    · obtain ⟨⟨name, version⟩, member, same⟩ := List.mem_map.mp isVersion
      obtain ⟨stored, isName⟩ := List.mem_filter.mp member
      obtain rfl := Option.some.inj same
      have named : name = profile.name.value := of_decide_eq_true isName
      rw [named] at stored
      exact handles.read system kept version stored

theorem writeStatus {status : NodeStatus} (isFine : fine status) :
    Keeps inv (writeStatus profile.name.value status) fun _ => True :=
  Keeps.change fun system kept => handles.write system status kept isFine

theorem setNodeStatus {state : ProfileState}
    (isFine : ∀ status, fine status → fine { status with state := some state }) :
    Keeps inv (setNodeStatus profile.name.value state) fun _ => True := by
  refine Keeps.ifFound handles.readStatus .done .done fun status found => ?_
  refine Keeps.ifDone keeps_call .done ?_
  simp only [if_true]
  split
  · exact .done
  · exact handles.writeStatus (isFine status (found status rfl))

theorem annotate {installed : Bool} (isFine : ∀ status, fine status → fine { status with installed := installed }) :
    Keeps inv (do setAnnotation profile.name.value installed) fun _ => True := by
  refine Keeps.ifFound handles.readStatus .done .done fun status found => ?_
  simp only
  split
  · exact .done
  · exact handles.writeStatus (isFine status (found status rfl))

theorem handleDeletion : Keeps inv (handleDeletion profile) fun _ => True := by
  have annotated : Keeps inv (do getAnnotation profile.name.value) fun result =>
      ∀ installed, result = some installed → ∃ status, fine status ∧ status.installed = installed := by
    refine Keeps.bind handles.readStatus fun result found => ?_
    match result with
    | none => exact Keeps.pure fun installed none => by cases none
    | some none =>
      refine Keeps.pure fun installed same => ⟨⟨none, false⟩, handles.new, ?_⟩
      exact Option.some.inj same
    | some (some status) =>
      refine Keeps.pure fun installed same => ⟨status, found status rfl, ?_⟩
      exact Option.some.inj same
  refine Keeps.ifSome annotated .done fun installed found => ?_
  obtain ⟨status, isFine, rfl⟩ := found installed rfl
  refine Keeps.bind (handles.remove status isFine) fun removed _ => ?_
  cases removed <;> exact .done

theorem reconcileDeletion : Keeps inv (reconcileDeletion profile) fun _ => True := by
  have finish : Keeps inv (finishDeletion profile) fun _ => True := by
    unfold finishDeletion
    split
    · exact .done
    · refine Keeps.ifDone handles.handleDeletion .done ?_
      exact Keeps.ifDone keeps_call .done keeps_call
  unfold Host.reconcileDeletion
  split
  · refine Keeps.ifFound handles.readStatus .done finish fun status found => ?_
    simp only
    split
    · exact finish
    · exact handles.setNodeStatus fun status isFine => handles.state status _ isFine (by decide)
  · exact .done

theorem reconcileDisabled : Keeps inv (reconcileDisabled profile) fun _ => True := by
  refine Keeps.ifFound handles.readStatus .done .done fun status found => ?_
  simp only
  split
  · exact .done
  · refine Keeps.ifDone handles.handleDeletion .done ?_
    exact Keeps.ifDone (handles.annotate handles.clear) .done
      (handles.setNodeStatus fun status isFine => handles.state status _ isFine (by decide))

theorem reconcileInstall : Keeps inv (reconcileInstall profile) fun _ => True := by
  refine Keeps.ifFound handles.readStatus .done .done fun status found => ?_
  refine Keeps.bind (handles.install status (found status rfl)) fun installed isFine => ?_
  cases installed with
  | error error => exact .done
  | ok updated =>
    have fineAfter := isFine updated rfl
    refine Keeps.ifDone (handles.annotate fun status isFine => (fineAfter status isFine).1) .done ?_
    refine Keeps.ifFound handles.readStatus .done .done fun status found => ?_
    simp only
    split
    · exact .done
    · exact handles.setNodeStatus fun status isFine => (fineAfter status isFine).2

theorem createStatus : Keeps inv (createStatus profile) fun _ => True := by
  have legacy : Keeps inv (removeLegacyNodeStatus profile.name.value) fun result =>
      ∀ state, result = some state → ∀ status, fine status → fine { status with state := some state } := by
    have asked : Keeps inv (Faulty.query fun system => system.legacy.lookup profile.name.value) fun result =>
        ∀ state, result.join = some state → ∀ status, fine status → fine { status with state := some state } := by
      refine Keeps.query (fun state none => by cases none) fun system kept state found => ?_
      exact handles.readLegacy system kept state found
    refine Keeps.bind asked fun result found => ?_
    cases joined : result.join with
    | none => exact Keeps.pure fun state none => by cases none
    | some state =>
      refine Keeps.ifDone (Keeps.change handles.removeLegacy) (Keeps.pure fun state none => by cases none) ?_
      refine Keeps.pure fun other same => ?_
      obtain rfl := Option.some.inj same
      exact found state joined
  have fineFirst : ∀ legacyState : Option ProfileState,
      (∀ state, legacyState = some state → ∀ status, fine status → fine { status with state := some state }) →
      ∀ status, fine status → fine { status with state := some (firstState profile legacyState) } := by
    intro legacyState isFine status fineStatus
    unfold firstState
    split
    · cases legacyState with
      | none => exact handles.state status _ fineStatus (by decide)
      | some state => exact isFine state rfl status fineStatus
    · apply handles.state status _ fineStatus
      unfold AppArmorProfile.initialStatus
      split
      · decide
      · split <;> decide
  refine Keeps.ifDone keeps_call .done ?_
  refine Keeps.ifDone keeps_call .done ?_
  refine Keeps.bind legacy fun legacyState isFine => ?_
  refine Keeps.bind handles.readStatus fun result found => ?_
  match result with
  | none => exact .done
  | some none =>
    exact Keeps.ifDone (handles.writeStatus handles.new) .done
      (handles.writeStatus (fineFirst legacyState isFine ⟨none, false⟩ handles.new))
  | some (some status) => exact handles.writeStatus (fineFirst legacyState isFine status (found status rfl))

/-- A reconcile keeps the invariant, wherever it is stopped. The operations on the profile are all that had to be
looked at. -/
theorem reconcile : Keeps inv (reconcileAppArmorProfile profile) fun _ => True := by
  have present : Keeps inv (reconcilePresent profile) fun _ => True := by
    unfold reconcilePresent
    split
    · exact .done
    · split
      · exact handles.reconcileDisabled
      · exact handles.reconcileInstall
  unfold reconcileAppArmorProfile
  split
  · exact handles.reconcileDeletion
  · refine Keeps.ifFound handles.readStatus .done handles.createStatus fun status found => ?_
    simp only
    split
    · exact Keeps.ifDone keeps_call .done present
    · exact handles.createStatus

end Handles

end handles

end SecurityProfiles.Host
