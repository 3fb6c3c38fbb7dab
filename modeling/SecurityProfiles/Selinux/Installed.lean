import SecurityProfiles.Selinux.Owner

namespace SecurityProfiles.Selinux

open Naming (ProfileState initialState)

section validation

variable {api : Api} (answers : ∀ name, api.answers name = true)
include answers

theorem get_answers (name : String) : api.get name ≠ .failed := by
  unfold Api.get
  rw [if_pos (answers name)]
  cases api.stored name <;> exact Lookup.noConfusion

theorem visitEntry_answers (own : String) (visited : List String) (current : InheritEntry) :
    visitEntry api own visited current ≠ .error .temporary := by
  intro failed
  unfold visitEntry at failed
  split at failed
  · cases failed
  · split at failed
    · cases failed
    · split at failed
      · cases failed
      · obtain ⟨ref, -, failed⟩ := Fallible.mapM_error (Fallible.map_error.mp (Fallible.map_error.mp failed))
        unfold nextEntry at failed
        split at failed
        · cases failed
        · split at failed
          · cases failed
          · split at failed
            · cases failed
            · next unread => exact get_answers answers _ unread
            · cases failed

theorem checkInheritCycle_answers (own : String) (ancestor : SelinuxProfile) :
    checkInheritCycle api own ancestor ≠ .error .temporary := by
  intro failed
  have kept := @Worklist.run_keeps _ _ _ _ (visitEntry_ends api own) [] [⟨ancestor, 1⟩] (fun _ _ => True)
    (fun _ _ _ _ _ _ _ => trivial) trivial
  obtain ⟨visited, current, _, _, refused⟩ := kept.2 _ failed
  exact visitEntry_answers answers own visited current refused

variable (spod : SpodSelinux)

theorem validateAndTrackInherit_answers (own : String) (ref : PolicyRef) (inherits : Inherits) :
    validateAndTrackInherit api spod own ref inherits ≠ .error .temporary := by
  have system : handleInheritSystemPolicy spod ref inherits ≠ .error .temporary := by
    unfold handleInheritSystemPolicy
    split <;> simp
  unfold validateAndTrackInherit
  split
  · exact system
  · exact system
  · unfold handleInheritSPOPolicy
    split
    · simp
    · next unread => exact absurd unread (get_answers answers _)
    · next ancestor _ =>
        exact fun failed => checkInheritCycle_answers answers own ancestor (Fallible.map_error.mp failed)
  · simp

theorem trackInherits_answers (own : String) (refs : List PolicyRef) (inherits : Inherits) :
    trackInherits api spod own refs inherits ≠ .error .temporary := by
  induction refs generalizing inherits with
  | nil => simp [trackInherits]
  | cons ref refs ih =>
    intro failed
    rcases Fallible.bind_error failed with here | ⟨tracked, later⟩
    · exact validateAndTrackInherit_answers answers spod own ref inherits here
    · exact ih tracked later

/-- If the API server answers, the validation does not have to be tried again. -/
theorem validate_answers (profile : SelinuxProfile) : validate api (some spod) profile ≠ .error .temporary := by
  intro failed
  rcases Fallible.bind_error failed with here | ⟨tracked, later⟩
  · exact trackInherits_answers answers spod profile.name profile.inherit ⟨[], []⟩ here
  · rcases Fallible.bind_error later with invalid | ⟨_, returned⟩
    · rcases validateAllow_error invalid with ⟨key, isKey⟩ | ⟨objClass, isClass⟩ | ⟨perm, isPerm⟩
      · cases isKey
      · cases isClass
      · cases isPerm
    · cases returned

end validation

/-- The API server answers all calls. -/
structure Environment.Answered (env : Environment) : Prop where
  reads : ∀ read, env.reads read = true
  writes : ∀ write, env.writes write = .done
  profiles : ∀ name, env.api.answers name = true
  ancestors : ∀ name, (env.ancestor name).state ≠ none

/-- The translation of the spec under the options, if there is one. -/
def translation (env : Environment) (node : Node) : Option Str :=
  match handle env .selinuxProfile node with
  | .ok handled => handled.cil
  | .error _ => none

/-- The state that the reconcile of an enabled profile starts with. -/
def stateBefore (env : Environment) (node : Node) (object : Object) : ProfileState :=
  if object.hasFinalizer then (node.statuses .selinuxProfile).getD (env.legacyState.getD .pending)
  else env.legacyState.getD .pending

/-- The policy file is the translation. -/
def Current (cil file : Option Str) : Prop := ∃ text, cil = some text ∧ file = some text

/-- The file starts with the contents, as far as it is read. -/
def StartsWith (file : Option Str) (contents : Str) : Prop :=
  file.map (·.take maxPolicyFileSize) = some contents

instance (file : Option Str) (contents : Str) : Decidable (StartsWith file contents) :=
  inferInstanceAs (Decidable (_ = _))

/-- The ways in which the reconcile of a valid profile leaves it as installed with whatever file there is. -/
inductive LeavesInstalled (env : Environment) (state : ProfileState) (file : Option Str) (handled : Handled) :
    Prop where
  /-- The module store cannot be checked against the policy file. -/
  | unchecked (installed : env.moduleInstalled = true) (failed : env.statForConflict = false)
    (before : state = .installed)
  /-- There is no translation, or the file cannot be read or written. -/
  | unwritten (checked : env.moduleInstalled = false ∨ env.statForConflict = true)
      (inherited : inheritedProfilesInstalled env handled.ancestors = .installed) (before : state = .installed)
      (fails : handled.cil = none ∨ env.readFile = false ∨
        ∃ contents, handled.cil = some contents ∧ ¬StartsWith file contents ∧ env.writeFile = .failed)
  /-- The file only starts with the translation. -/
  | longer (checked : env.moduleInstalled = false ∨ env.statForConflict = true)
      (inherited : inheritedProfilesInstalled env handled.ancestors = .installed) {contents : Str}
      (translated : handled.cil = some contents) (read : env.readFile = true) (starts : StartsWith file contents)
      (told : env.policyStatus = .installed ∨ env.policyStatus = .unknown ∧ state = .installed)

/-- The reconcile leaves a profile as installed although the policy file is not its translation. -/
def ShownOutdated (env : Environment) (node : Node) (object : Object) : Prop :=
  ∃ handled, handle env .selinuxProfile node = .ok handled ∧
    policyOwner .selinuxProfile object (node.objects .rawSelinuxProfile) = false ∧ ¬Current handled.cil node.file ∧
    LeavesInstalled env (stateBefore env node object) node.file handled

section reconcile

variable {env : Environment} {node : Node} {object : Object} {state : ProfileState} {handled : Handled}

theorem Node.statuses_setStatus (kind : Kind) (status : Option ProfileState) :
    (node.setStatus kind status).statuses kind = status := Function.update_self _ _ _

theorem leavesInstalled_unchecked {file : Option Str}
    (unchecked : env.moduleInstalled = true ∧ env.statForConflict = false) :
    LeavesInstalled env state file handled ↔ state = .installed := by
  refine ⟨fun leaves => ?_, fun before => .unchecked unchecked.1 unchecked.2 before⟩
  cases leaves with
  | unchecked _ _ before => exact before
  | unwritten _ _ before _ => exact before
  | longer checked => simp [unchecked] at checked

theorem leavesInstalled_checked {file : Option Str}
    (checked : env.moduleInstalled = false ∨ env.statForConflict = true) :
    LeavesInstalled env state file handled ↔ inheritedProfilesInstalled env handled.ancestors = .installed ∧
      (state = .installed ∧ (handled.cil = none ∨ env.readFile = false ∨
          ∃ contents, handled.cil = some contents ∧ ¬StartsWith file contents ∧ env.writeFile = .failed) ∨
        ∃ contents, handled.cil = some contents ∧ env.readFile = true ∧ StartsWith file contents ∧
          (env.policyStatus = .installed ∨ env.policyStatus = .unknown ∧ state = .installed)) := by
  constructor
  · intro leaves
    cases leaves with
    | unchecked installed failed => simp [installed, failed] at checked
    | unwritten _ inherited before fails => exact ⟨inherited, .inl ⟨before, fails⟩⟩
    | longer _ inherited translated read starts told => exact ⟨inherited, .inr ⟨_, translated, read, starts, told⟩⟩
  · rintro ⟨inherited, ⟨before, fails⟩ | ⟨contents, translated, read, starts, told⟩⟩
    · exact .unwritten checked inherited before fails
    · exact .longer checked inherited translated read starts told

theorem setNodeStatus_answered (answered : env.Answered) (isState : node.statuses .selinuxProfile = some state)
    (next : ProfileState) :
    setNodeStatus env .selinuxProfile next node = (node.setStatus .selinuxProfile (some next), true) := by
  unfold setNodeStatus
  rw [isState, answered.writes]
  rfl

/-- What is to be shown of the end of a reconcile, with the way that leads there. -/
def Shows (env : Environment) (handled : Handled) (state : ProfileState) (file : Option Str) (after : Node) :
    Prop :=
  (after.statuses .selinuxProfile = some .installed → Current handled.cil after.file) ↔
    ¬(¬Current handled.cil file ∧ LeavesInstalled env state file handled)

theorem shows_setNodeStatus (answered : env.Answered) (isState : node.statuses .selinuxProfile = some state)
    {next : ProfileState} (other : next ≠ .installed) {file : Option Str} (result : Result)
    (never : ¬LeavesInstalled env state file handled) :
    Shows env handled state file (finish result (setNodeStatus env .selinuxProfile next node)).1 := by
  rw [setNodeStatus_answered answered isState]
  refine ⟨fun _ ⟨_, leaves⟩ => never leaves, fun _ isInstalled => ?_⟩
  exact absurd (Option.some.inj ((Node.statuses_setStatus _ _).symm.trans isInstalled)) other

/-- Nothing is changed. -/
theorem shows_unchanged (isState : node.statuses .selinuxProfile = some state)
    (leaves : state = .installed ↔ LeavesInstalled env state node.file handled) :
    Shows env handled state node.file node := by
  unfold Shows
  rw [isState, ← leaves, Option.some.injEq]
  tauto

section

variable (answered : env.Answered)
include answered

theorem conflictsWithSystemModule_answered (isState : node.statuses .selinuxProfile = some state) :
    (conflictsWithSystemModule env .selinuxProfile node = none ↔ env.moduleInstalled = true ∧
      env.statForConflict = false) ∧
    (conflictsWithSystemModule env .selinuxProfile node = some true →
      (env.moduleInstalled = false ∨ env.statForConflict = true) ∧ node.file = none ∧ state ≠ .installed) := by
  unfold conflictsWithSystemModule
  rw [isState, answered.reads]
  cases env.moduleInstalled with
  | false => simp
  | true =>
    cases env.statForConflict with
    | false => simp
    | true =>
      cases node.file with
      | some contents => simp
      | none => cases state <;> simp

theorem shows_handlePolicyStatus (isState : node.statuses .selinuxProfile = some state)
    (checked : env.moduleInstalled = false ∨ env.statForConflict = true)
    (inherited : inheritedProfilesInstalled env handled.ancestors = .installed) {contents : Str}
    (translated : handled.cil = some contents) (read : env.readFile = true)
    (starts : StartsWith node.file contents) :
    Shows env handled state node.file (handlePolicyStatus env .selinuxProfile node).1 := by
  have leaves : LeavesInstalled env state node.file handled ↔
      env.policyStatus = .installed ∨ env.policyStatus = .unknown ∧ state = .installed := by
    rw [leavesInstalled_checked checked]
    simp [inherited, translated, read, starts]
  unfold handlePolicyStatus
  split
  · next told => exact shows_setNodeStatus answered isState ProfileState.noConfusion _ (by simp [leaves, told])
  · next told => exact shows_unchanged isState (by simp [leaves, told])
  · next told =>
      rw [setNodeStatus_answered answered isState]
      refine ⟨fun current ⟨outdated, _⟩ => outdated (current (Node.statuses_setStatus _ _)), fun never _ => ?_⟩
      by_contra outdated
      exact never ⟨outdated, leaves.mpr (.inl told)⟩
  · next told => exact shows_setNodeStatus answered isState ProfileState.noConfusion _ (by simp [leaves, told])

theorem inheritedProfilesInstalled_answered (names : List String) :
    inheritedProfilesInstalled env names ≠ .failed := by
  induction names with
  | nil => exact AncestorCheck.noConfusion
  | cons name names ih =>
    unfold inheritedProfilesInstalled
    split
    · exact AncestorCheck.noConfusion
    · split
      · next unread => exact absurd unread (answered.ancestors name)
      · split
        · exact AncestorCheck.noConfusion
        · split
          · exact AncestorCheck.noConfusion
          · exact ih

theorem shows_writeFile (isState : node.statuses .selinuxProfile = some state)
    (checked : env.moduleInstalled = false ∨ env.statForConflict = true)
    (inherited : inheritedProfilesInstalled env handled.ancestors = .installed) :
    Shows env handled state node.file (match reconcilePolicyFile env .selinuxProfile handled.cil node with
      | (node, none) => (node, Result.failed)
      | (node, some true) => waitForSelinuxd env .selinuxProfile node
      | (node, some false) => handlePolicyStatus env .selinuxProfile node).1 := by
  have leaves := @leavesInstalled_checked env state handled node.file checked
  cases translated : handled.cil with
  | none => exact shows_unchanged isState (by simp [leaves, inherited, translated])
  | some contents =>
    unfold reconcilePolicyFile writeFileIfDiffers
    dsimp only
    by_cases read : env.readFile = true
    · rw [read]
      by_cases starts : StartsWith node.file contents
      · have same : node.file.map (·.take maxPolicyFileSize) = some contents := starts
        rw [if_neg (by simp), if_pos same]
        exact shows_handlePolicyStatus answered isState checked inherited translated read starts
      · have differs : ¬node.file.map (·.take maxPolicyFileSize) = some contents := starts
        rw [if_neg (by simp), if_neg differs]
        cases outcome : env.writeFile with
        | done =>
          refine @shows_setNodeStatus env (node.setFile .selinuxProfile (some contents)) state handled
            answered isState .inProgress ?_ _ _ ?_
          · exact ProfileState.noConfusion
          · simp [leaves, translated, read, starts, outcome]
        | failed => exact shows_unchanged isState (by simp [leaves, inherited, translated, read, starts, outcome])
        | unreported =>
          -- The file is the translation, although the reconcile fails.
          refine ⟨fun _ ⟨_, isLeft⟩ => ?_, fun _ _ => ⟨contents, translated, rfl⟩⟩
          simp [leaves, translated, read, starts, outcome] at isLeft
    · rw [Bool.of_not_eq_true read]
      exact shows_unchanged isState (by simp [leaves, inherited, read])

/-- Each branch of the installation ends as it should: installed with another file only in the ways that leave it
so. -/
theorem shows_installPolicy (isState : node.statuses .selinuxProfile = some state)
    (free : policyOwner .selinuxProfile object (node.objects .rawSelinuxProfile) = false) :
    Shows env handled state node.file (installPolicy env .selinuxProfile object handled node).1 := by
  have isFree : findOwner env .selinuxProfile object node = some false := by
    unfold findOwner
    rw [if_pos (answered.reads _)]
    exact congrArg some free
  obtain ⟨unchecked, taken⟩ := conflictsWithSystemModule_answered answered isState
  have checked : conflictsWithSystemModule env .selinuxProfile node ≠ none →
      env.moduleInstalled = false ∨ env.statForConflict = true := by
    intro known
    have fails := known ∘ unchecked.mpr
    cases isInstalled : env.moduleInstalled with
    | false => exact .inl rfl
    | true =>
      refine .inr ?_
      by_contra failed
      exact fails ⟨isInstalled, Bool.of_not_eq_true failed⟩
  unfold installPolicy checkConflicts
  rw [isFree]
  dsimp only
  cases conflict : conflictsWithSystemModule env .selinuxProfile node with
  | none =>
    exact shows_unchanged isState (leavesInstalled_unchecked (unchecked.mp conflict)).symm
  | some isTaken =>
    have leaves :=
      @leavesInstalled_checked env state handled node.file (checked (by rw [conflict]; exact Option.some_ne_none _))
    cases isTaken with
    | true =>
      obtain ⟨_, noFile, other⟩ := taken conflict
      refine shows_setNodeStatus answered isState ProfileState.noConfusion _ (leaves.not.mpr ?_)
      simp [other, noFile, StartsWith]
    | false =>
      dsimp only
      unfold waitForAncestors
      cases inherited : inheritedProfilesInstalled env handled.ancestors with
      | installed =>
        exact shows_writeFile answered isState (checked (by rw [conflict]; exact Option.some_ne_none _)) inherited
      | waiting =>
        exact shows_setNodeStatus answered isState ProfileState.noConfusion _ (by simp [leaves, inherited])
      | unusable =>
        exact shows_setNodeStatus answered isState ProfileState.noConfusion _ (by simp [leaves, inherited])
      | failed => exact absurd inherited (inheritedProfilesInstalled_answered answered _)

/-- The node status is there, and nothing that the translation depends on has changed. -/
theorem ensureNodeStatus_answered (enabled : object.disabled = false) (complete : object.isPartial = false) :
    ∃ middle, ensureNodeStatus env .selinuxProfile object node = (middle, true) ∧
      middle.statuses .selinuxProfile = some (stateBefore env node object) ∧ middle.file = node.file ∧
      middle.objects .rawSelinuxProfile = node.objects .rawSelinuxProfile ∧ middle.profile = node.profile ∧
      middle.spod = node.spod := by
  have different : Kind.rawSelinuxProfile ≠ .selinuxProfile := Kind.noConfusion
  have sameOther : (node.setFinalizer .selinuxProfile true).objects .rawSelinuxProfile =
      node.objects .rawSelinuxProfile := by
    unfold Node.setFinalizer Node.setObject
    dsimp only
    rw [Function.update_of_ne different]
  unfold ensureNodeStatus stateBefore
  rw [answered.reads, answered.writes, answered.writes]
  cases object.hasFinalizer with
  | true =>
    cases isState : node.statuses .selinuxProfile with
    | some state => exact ⟨node, rfl, isState, rfl, rfl, rfl, rfl⟩
    | none =>
      refine ⟨_, rfl, (Node.statuses_setStatus _ _).trans ?_, rfl, sameOther, rfl, rfl⟩
      rw [initialState, enabled, complete]
      rfl
  | false =>
    refine ⟨_, rfl, (Node.statuses_setStatus _ _).trans ?_, rfl, sameOther, rfl, rfl⟩
    rw [initialState, enabled, complete]
    rfl

end

theorem handle_congr {node' : Node} (sameProfile : node'.profile = node.profile)
    (sameSpod : node'.spod = node.spod) :
    handle env .selinuxProfile node' = handle env .selinuxProfile node := by
  unfold handle
  dsimp only
  rw [sameProfile, sameSpod]

theorem handle_answered (answered : env.Answered) : handle env .selinuxProfile node ≠ .error .temporary := by
  have permanent := validate_answers answered.profiles node.spod node.profile
  unfold handle
  dsimp only
  rw [if_pos (answered.reads _)]
  cases outcome : validate env.api (some node.spod) node.profile with
  | error error => exact fun failed => permanent (by rw [outcome, Except.error.inj failed])
  | ok inherits =>
    intro failed
    cases failed

end reconcile

/-- After a reconcile of an enabled and complete profile, with selinuxd ready and all calls to the API server
answered, the profile is only shown as installed if the policy file is its translation under the options, unless the
reconcile leaves it as installed without having written the file. -/
theorem installed_is_current_iff (start : Node) (steps : List Step) {env : Environment} {object : Object}
    (isObject : (run start steps).objects .selinuxProfile = some object) (kept : object.deleting = false)
    (enabled : object.disabled = false) (complete : object.isPartial = false)
    (ready : env.selinuxdReady = some true) (answered : env.Answered) :
    ((reconcile env .selinuxProfile (run start steps)).1.statuses .selinuxProfile = some .installed →
      Current (translation env (run start steps)) (reconcile env .selinuxProfile (run start steps)).1.file) ↔
    ¬ShownOutdated env (run start steps) object := by
  generalize run start steps = node at isObject ⊢
  obtain ⟨middle, ensured, isState, sameFile, sameOther, sameProfile, sameSpod⟩ :=
    @ensureNodeStatus_answered env node object answered enabled complete
  have isReconcile : reconcile env .selinuxProfile node = reconcilePolicy env .selinuxProfile object middle := by
    unfold reconcile
    rw [answered.reads, isObject]
    simp [kept, ensured]
  have sameHandle := @handle_congr env node middle sameProfile sameSpod
  rw [isReconcile]
  unfold reconcilePolicy ShownOutdated translation
  rw [ready, sameHandle, enabled]
  simp only [Bool.false_and, Bool.false_eq_true, if_false]
  cases isHandled : handle env .selinuxProfile node with
  | error error =>
    have permanent := @handle_answered env node answered
    rw [isHandled] at permanent
    have other : (handleValidationError env .selinuxProfile error middle).1.statuses .selinuxProfile =
        some .error := by
      unfold handleValidationError
      split
      · exact absurd rfl permanent
      · rw [setNodeStatus_answered answered isState]
        exact Node.statuses_setStatus _ _
      · rw [setNodeStatus_answered answered isState]
        exact Node.statuses_setStatus _ _
    dsimp only
    rw [other]
    refine ⟨fun _ ⟨handled, isOk, _⟩ => ?_, fun _ isInstalled => ?_⟩
    · cases isOk
    · cases isInstalled
  | ok handled =>
    have reconcilable : object.isReconcilable = true := by rw [Object.isReconcilable, enabled, complete]; rfl
    dsimp only
    rw [if_pos reconcilable]
    by_cases free : policyOwner .selinuxProfile object (node.objects .rawSelinuxProfile) = false
    · have shows := @shows_installPolicy env middle object _ handled answered isState (sameOther ▸ free)
      rw [sameFile] at shows
      refine shows.trans (not_congr ⟨fun ⟨outdated, leaves⟩ => ⟨handled, rfl, free, outdated, leaves⟩, ?_⟩)
      rintro ⟨same, isSame, _, outdated, leaves⟩
      cases isSame
      exact ⟨outdated, leaves⟩
    · have found : findOwner env .selinuxProfile object middle = some true := by
        unfold findOwner
        rw [if_pos (answered.reads _)]
        refine congrArg some ?_
        rw [← Bool.not_eq_false]
        exact sameOther ▸ free
      have other : (installPolicy env .selinuxProfile object handled middle).1.statuses .selinuxProfile =
          some .error := by
        unfold installPolicy checkConflicts
        rw [found, setNodeStatus_answered answered isState]
        exact Node.statuses_setStatus _ _
      rw [other]
      refine ⟨fun _ ⟨_, _, isFree, _⟩ => free isFree, fun _ isInstalled => ?_⟩
      cases isInstalled

/-- An environment in which nothing fails and the policy is installed. -/
def calmEnvironment : Environment where
  reads := fun _ => true
  writes := fun _ => .done
  legacyState := none
  api := familyApi
  ancestor := fun _ => ⟨true, some (some .installed)⟩
  handledRaw := .error .temporary
  selinuxdReady := some true
  moduleInstalled := false
  statForConflict := true
  readFile := true
  writeFile := .done
  policyStatus := .installed
  statDisabled := true
  selinuxdReadyToDelete := some true
  removeFile := .done
  removedStatus := .notFound
  moduleLeft := false
  reload := .done

theorem calmEnvironment_answered : calmEnvironment.Answered :=
  ⟨fun _ => rfl, fun _ => rfl, fun _ => rfl, fun _ => Option.some_ne_none _⟩

def defaultSpod : SpodSelinux := ⟨[], ⟨[], [], [], [], [], []⟩⟩

/-- A node with a profile that may read files, of which nothing is installed yet. -/
def freshNode : Node where
  objects := fun kind => if kind = .selinuxProfile then some ⟨1, false, false, false, false, false⟩ else none
  profile := ⟨⟨"web", false, .insert .empty "var_t" (.insert .empty "file" ["read"])⟩, []⟩
  spod := defaultSpod
  statuses := fun _ => none
  file := none
  changes := []

/-- The reconcile of a profile that got installed, after the class that it allows got denied. -/
def deniedSteps : List Step :=
  [.reconcile .selinuxProfile calmEnvironment, .reconcile .selinuxProfile calmEnvironment,
    .configure { defaultSpod with options := ⟨[], ["file"], [], [], [], []⟩ }]

theorem denied_shown_installed :
    (run freshNode deniedSteps).objects .selinuxProfile = some ⟨1, false, false, false, false, true⟩ ∧
    (reconcile calmEnvironment .selinuxProfile (run freshNode deniedSteps)).1.statuses .selinuxProfile =
      some .installed ∧
    translation calmEnvironment (run freshNode deniedSteps) = none :=
  ⟨rfl, rfl, rfl⟩

theorem web_installed_current :
    (run freshNode [.reconcile .selinuxProfile calmEnvironment]).statuses .selinuxProfile = some .inProgress ∧
    ((reconcile calmEnvironment .selinuxProfile
      (run freshNode [.reconcile .selinuxProfile calmEnvironment])).1.statuses
      .selinuxProfile = some .installed ∧
    (¬ShownOutdated calmEnvironment (run freshNode [.reconcile .selinuxProfile calmEnvironment])
      ⟨1, false, false, false, false, true⟩)) := by
  refine ⟨rfl, rfl, ?_⟩
  refine (installed_is_current_iff freshNode [.reconcile .selinuxProfile calmEnvironment] rfl rfl rfl rfl rfl
    calmEnvironment_answered).mp fun _ => ?_
  exact ⟨_, rfl, rfl⟩

end SecurityProfiles.Selinux
