import SecurityProfiles.Selinux.Controller

namespace SecurityProfiles.Selinux

open Naming (ProfileState)

section owner

variable {kind : Kind} {object other : Object}

/-- Of two profiles of the same name, exactly one owns the policy. -/
theorem ownsPolicyBefore_iff : ownsPolicyBefore kind object other = true ↔
    ownsPolicyBefore (otherKind kind) other object = false := by
  unfold ownsPolicyBefore
  by_cases tie : object.creationTimestamp = other.creationTimestamp
  · rw [if_neg (not_not.mpr tie), if_neg (not_not.mpr tie.symm)]
    cases kind <;> simp [otherKind]
  · rw [if_pos tie, if_pos (Ne.symm tie), decide_eq_true_iff, decide_eq_false_iff_not]
    omega

theorem policyOwner_congr {object' : Object} {others others' : Option Object}
    (same : object'.creationTimestamp = object.creationTimestamp)
    (sameOther : others'.map (·.creationTimestamp) = others.map (·.creationTimestamp)) :
    policyOwner kind object' others' = policyOwner kind object others := by
  cases others with
  | none =>
    cases others' with
    | none => rfl
    | some other' => cases sameOther
  | some other =>
    cases others' with
    | none => cases sameOther
    | some other' =>
      have sameTime : other'.creationTimestamp = other.creationTimestamp := Option.some.inj sameOther
      unfold policyOwner ownsPolicyBefore
      dsimp only
      rw [same, sameTime]

end owner

/-- The profile that exists and owns the policy, as the other one does not exist or was created later. -/
def Node.Owns (node : Node) (kind : Kind) : Prop :=
  ∃ object, node.objects kind = some object ∧ policyOwner kind object (node.objects (otherKind kind)) = false

/-- The file was changed for the owner of the policy. -/
def FileChange.Fair (change : FileChange) : Prop :=
  ∃ object, change.objects change.changedFor = some object ∧
    policyOwner change.changedFor object (change.objects (otherKind change.changedFor)) = false

section changes

variable {env : Environment} {kind : Kind} {object : Object} {node : Node}

/-- When the profiles were created. -/
def Node.times (node : Node) (kind : Kind) : Option Nat := (node.objects kind).map (·.creationTimestamp)

theorem Node.times_setObject (changed : Kind) (object : Option Object) (kind : Kind) :
    (node.setObject changed object).times kind =
    if kind = changed then object.map (·.creationTimestamp) else node.times kind := by
  unfold Node.times Node.setObject
  dsimp only
  by_cases same : kind = changed
  · subst same
    rw [Function.update_self, if_pos rfl]
  · rw [Function.update_of_ne same, if_neg same]

/-- What a program of the reconciler does: nothing to the policy file, or one change for the owner, and nothing that
matters for ownership to the profiles. -/
structure Guarded (kind : Kind) (object : Object) (before after : Node) : Prop where
  changes : after.changes = before.changes ∨
    policyOwner kind object (before.objects (otherKind kind)) = false ∧
      ∃ content, after.changes = ⟨kind, content, before.objects⟩ :: before.changes
  times : after.times = before.times

theorem Guarded.refl : Guarded kind object node node := ⟨.inl rfl, rfl⟩

/-- A program that changes neither the file nor the timestamps of the profiles. -/
structure Quiet (before after : Node) : Prop where
  changes : after.changes = before.changes
  times : after.times = before.times

theorem Quiet.refl : Quiet node node := ⟨rfl, rfl⟩

theorem Quiet.trans {middle after : Node} (first : Quiet node middle) (second : Quiet middle after) :
    Quiet node after :=
  ⟨second.changes.trans first.changes, second.times.trans first.times⟩

theorem Guarded.quiet {middle after : Node} (guarded : Guarded kind object node middle)
    (quiet : Quiet middle after) :
    Guarded kind object node after :=
  ⟨quiet.changes ▸ guarded.changes, quiet.times.trans guarded.times⟩

theorem Quiet.guarded {after : Node} (quiet : Quiet node after) : Guarded kind object node after :=
  Guarded.refl.quiet quiet

theorem quiet_setStatus (status : Option ProfileState) : Quiet node (node.setStatus kind status) := ⟨rfl, rfl⟩

theorem quiet_setFinalizer (hasFinalizer : Bool) : Quiet node (node.setFinalizer kind hasFinalizer) := by
  refine ⟨rfl, funext fun other => ?_⟩
  unfold Node.setFinalizer
  rw [Node.times_setObject]
  split
  · next same =>
      subst same
      rw [Option.map_map]
      rfl
  · rfl

theorem attempt_keeps {holds : Node → Prop} {effect : Node → Node} (outcome : Outcome) (before : holds node)
    (after : holds (effect node)) : holds (attempt outcome effect node).1 := by
  cases outcome
  · exact after
  · exact before
  · exact after

theorem quiet_setNodeStatus (state : ProfileState) : Quiet node (setNodeStatus env kind state node).1 := by
  unfold setNodeStatus
  split
  · exact attempt_keeps _ .refl (quiet_setStatus _)
  · exact .refl

theorem findOwner_false (free : findOwner env kind object node = some false) :
    policyOwner kind object (node.objects (otherKind kind)) = false := by
  unfold findOwner at free
  split at free
  · exact Option.some.inj free
  · cases free

section

variable (free : policyOwner kind object (node.objects (otherKind kind)) = false)
include free

theorem guarded_setFile (outcome : Outcome)
    (content : Option Str) : Guarded kind object node (attempt outcome (·.setFile kind content) node).1 := by
  exact attempt_keeps _ .refl ⟨.inr ⟨free, content, rfl⟩, rfl⟩

theorem guarded_reconcilePolicyFile
    (cil : Option Str) : Guarded kind object node (reconcilePolicyFile env kind cil node).1 := by
  unfold reconcilePolicyFile
  split
  · exact .refl
  · next contents =>
      unfold writeFileIfDiffers
      split
      · exact .refl
      · split
        · exact .refl
        · have guarded := guarded_setFile free env.writeFile (some contents)
          split
          · next written => rw [written] at guarded; exact guarded
          · next written => rw [written] at guarded; exact guarded

end

theorem guarded_handlePolicyStatus {changed : Node} (guarded : Guarded kind object node changed) :
    Guarded kind object node (handlePolicyStatus env kind changed).1 := by
  unfold handlePolicyStatus
  split
  · exact guarded.quiet (quiet_setNodeStatus _)
  · exact guarded
  · exact guarded.quiet (quiet_setNodeStatus _)
  · exact guarded.quiet (quiet_setNodeStatus _)

theorem checkConflicts_some {ended : Node × Result} (isEnded : checkConflicts env kind object node = some ended) :
    Guarded kind object node ended.1 := by
  unfold checkConflicts at isEnded
  split at isEnded
  · cases isEnded
    exact .refl
  · cases isEnded
    exact (quiet_setNodeStatus _).guarded
  · split at isEnded
    · cases isEnded
      exact .refl
    · cases isEnded
      exact (quiet_setNodeStatus _).guarded
    · cases isEnded

theorem checkConflicts_none (free : checkConflicts env kind object node = none) :
    policyOwner kind object (node.objects (otherKind kind)) = false := by
  unfold checkConflicts at free
  split at free
  · cases free
  · cases free
  · next isFree => exact findOwner_false isFree

theorem waitForAncestors_some {ancestors : List String} {ended : Node × Result}
    (isEnded : waitForAncestors env kind ancestors node = some ended) : Guarded kind object node ended.1 := by
  unfold waitForAncestors at isEnded
  split at isEnded
  · cases isEnded
  · cases isEnded
    exact (quiet_setNodeStatus _).guarded
  · cases isEnded
    exact (quiet_setNodeStatus _).guarded
  · cases isEnded
    exact .refl

theorem guarded_installPolicy (handled : Handled) :
    Guarded kind object node (installPolicy env kind object handled node).1 := by
  unfold installPolicy
  split
  · next isEnded => exact checkConflicts_some isEnded
  · next free =>
      split
      · next isEnded => exact waitForAncestors_some isEnded
      · have guarded := @guarded_reconcilePolicyFile env kind object node (checkConflicts_none free) handled.cil
        split
        · next written => rw [written] at guarded; exact guarded
        · next written => rw [written] at guarded; exact guarded.quiet (quiet_setNodeStatus _)
        · next written => rw [written] at guarded; exact guarded_handlePolicyStatus guarded

theorem guarded_reconcileDeletePolicy (free : policyOwner kind object (node.objects (otherKind kind)) = false) :
    Guarded kind object node (reconcileDeletePolicy env kind node).1 := by
  unfold reconcileDeletePolicy
  split
  · exact .refl
  · exact .refl
  · split
    · exact guarded_setFile free env.removeFile none
    · split
      · exact .refl
      · split <;> exact .refl

theorem guarded_markDisabled {changed : Node} (guarded : Guarded kind object node changed) (state : ProfileState) :
    Guarded kind object node (markDisabled env kind state changed).1 := by
  unfold markDisabled
  split
  · exact guarded
  · exact guarded.quiet (quiet_setNodeStatus _)

theorem guarded_reconcileDisabledPolicy :
    Guarded kind object node (reconcileDisabledPolicy env kind object node).1 := by
  unfold reconcileDisabledPolicy
  split
  · exact .refl
  · split
    · exact .refl
    · split
      · split
        · exact .refl
        · exact guarded_markDisabled .refl _
        · next free =>
            split
            · exact .refl
            · have guarded := @guarded_reconcileDeletePolicy env kind object node (findOwner_false free)
              split
              · next deleted => rw [deleted] at guarded; exact guarded_markDisabled guarded _
              · exact guarded
      · exact guarded_markDisabled .refl _

theorem guarded_handleValidationError (error : ValidationError) :
    Guarded kind object node (handleValidationError env kind error node).1 := by
  unfold handleValidationError
  split
  · exact .refl
  · exact (quiet_setNodeStatus _).guarded
  · exact (quiet_setNodeStatus _).guarded

theorem guarded_reconcilePolicy : Guarded kind object node (reconcilePolicy env kind object node).1 := by
  unfold reconcilePolicy
  split
  · exact .refl
  · exact .refl
  · split
    · exact guarded_reconcileDisabledPolicy
    · split
      · exact guarded_handleValidationError _
      · split
        · exact guarded_installPolicy _
        · exact .refl

theorem guarded_handleDeletion : Guarded kind object node (handleDeletion env kind object node).1 := by
  unfold handleDeletion
  split
  · exact .refl
  · exact .refl
  · next free => exact guarded_reconcileDeletePolicy (findOwner_false free)

theorem quiet_removeProfile : Quiet node (removeProfile env kind node).1 := by
  unfold removeProfile
  have first : Quiet node (attempt (env.writes .removeFinalizer) (·.setFinalizer kind false) node).1 :=
    attempt_keeps _ .refl (quiet_setFinalizer _)
  split
  · next isFirst =>
      rw [isFirst] at first
      exact first
  · next isFirst =>
      rw [isFirst] at first
      exact first.trans (attempt_keeps _ .refl (quiet_setStatus _))

theorem guarded_reconcileDeletion : Guarded kind object node (reconcileDeletion env kind object node).1 := by
  unfold reconcileDeletion
  split
  · exact .refl
  · split
    · exact .refl
    · split
      · exact .refl
      · split
        · exact (quiet_setNodeStatus _).guarded
        · split
          · exact .refl
          · have guarded := @guarded_handleDeletion env kind object node
            split
            · next handled =>
                rw [handled] at guarded
                exact guarded.quiet quiet_removeProfile
            · exact guarded

theorem quiet_ensureNodeStatus : Quiet node (ensureNodeStatus env kind object node).1 := by
  unfold ensureNodeStatus
  split
  · exact .refl
  · split
    · exact .refl
    · have first : Quiet node (attempt (env.writes .createFinalizer) (·.setFinalizer kind true) node).1 :=
        attempt_keeps _ .refl (quiet_setFinalizer _)
      split
      · next isFirst =>
          rw [isFirst] at first
          exact first
      · next isFirst =>
          rw [isFirst] at first
          exact first.trans (attempt_keeps _ .refl (quiet_setStatus _))

/-- A reconcile first finds out about the profile, which changes nothing. What it does then to the policy file is
guarded by the owner. -/
theorem reconcile_guarded : Quiet node (reconcile env kind node).1 ∨
    ∃ object middle, node.objects kind = some object ∧
    Quiet node middle ∧ Guarded kind object middle (reconcile env kind node).1 := by
  unfold reconcile
  split
  · exact .inl .refl
  · split
    · exact .inl .refl
    · next object isObject =>
        split
        · exact .inr ⟨object, node, isObject, .refl, guarded_reconcileDeletion⟩
        · have ensured := @quiet_ensureNodeStatus env kind object node
          split
          · next isEnsured =>
              rw [isEnsured] at ensured
              exact .inl ensured
          · next isEnsured =>
              rw [isEnsured] at ensured
              exact .inr ⟨object, _, isObject, ensured, guarded_reconcilePolicy⟩

theorem reconcile_times : (reconcile env kind node).1.times = node.times := by
  rcases @reconcile_guarded env kind node with quiet | ⟨object, middle, _, quiet, guarded⟩
  · exact quiet.times
  · exact guarded.times.trans quiet.times

theorem reconcile_fair : ∀ change ∈ (reconcile env kind node).1.changes, change ∈ node.changes ∨ change.Fair := by
  intro change member
  rcases @reconcile_guarded env kind node with quiet | ⟨object, middle, isObject, quiet, guarded⟩
  · rw [quiet.changes] at member
    exact .inl member
  · rcases guarded.changes with same | ⟨free, content, logged⟩
    · rw [same, quiet.changes] at member
      exact .inl member
    · rw [logged, quiet.changes] at member
      rcases List.mem_cons.mp member with rfl | earlier
      · have sameTime : middle.times kind = node.times kind := congrFun quiet.times kind
        unfold Node.times at sameTime
        rw [isObject] at sameTime
        obtain ⟨current, isCurrent, sameTime⟩ := Option.map_eq_some_iff.mp sameTime
        exact .inr ⟨current, isCurrent, (policyOwner_congr sameTime rfl).trans free⟩
      · exact .inl earlier

end changes

section runs

variable {start node : Node} {kind : Kind}

theorem step_fair (one : Step) : ∀ change ∈ (step node one).changes, change ∈ node.changes ∨ change.Fair := by
  cases one with
  | create kind object =>
    unfold step
    dsimp only
    split
    · exact fun _ member => .inl member
    · exact fun _ member => .inl member
  | reconcile kind env => exact reconcile_fair
  | _ => exact fun _ member => .inl member

theorem run_fair (steps : List Step) :
    ∀ change ∈ (run start steps).changes, change ∈ start.changes ∨ change.Fair := by
  induction steps generalizing start with
  | nil => exact fun _ member => .inl member
  | cons one steps ih =>
    intro change member
    rcases ih change member with earlier | fair
    · exact step_fair one change earlier
    · exact .inr fair

/-- A profile keeps its timestamp as long as it exists. -/
theorem step_times (one : Step) (before : (node.objects kind).isSome = true)
    (after : ((step node one).objects kind).isSome = true) : (step node one).times kind = node.times kind := by
  have updated : ∀ {changed : Kind} {object : Option Object}, (changed = kind →
      object.map (·.creationTimestamp) = node.times kind) →
      (node.setObject changed object).times kind = node.times kind := by
    intro changed object sameTime
    rw [Node.times_setObject]
    split
    · next same => exact sameTime same.symm
    · rfl
  cases one with
  | create changed object =>
    unfold step
    dsimp only
    split
    · rfl
    · next missing =>
        refine updated fun same => ?_
        subst same
        exact absurd before missing
  | update changed object =>
    refine updated fun same => ?_
    subst same
    unfold Node.times
    rw [Option.map_map]
    rfl
  | remove changed =>
    refine updated fun same => ?_
    subst same
    unfold step Node.setObject at after
    dsimp only at after
    rw [Function.update_self] at after
    cases after
  | specify profile => rfl
  | configure spod => rfl
  | reconcile changed env => exact congrFun reconcile_times kind

theorem run_times (steps : List Step)
    (exist : ∀ front, front <+: steps → ((run start front).objects kind).isSome = true) :
    (run start steps).times kind = start.times kind := by
  induction steps generalizing start with
  | nil => rfl
  | cons one steps ih =>
    have first := exist [one] ⟨steps, rfl⟩
    have here := exist [] (List.nil_prefix)
    have later : (run (step start one) steps).times kind = (step start one).times kind :=
      ih fun front isFront => exist (one :: front) (List.cons_prefix_cons.mpr ⟨rfl, isFront⟩)
    exact later.trans (step_times one here first)

theorem owns_of_times {node' : Node} (same : ∀ kind, node'.times kind = node.times kind) (owns : node.Owns kind) :
    node'.Owns kind := by
  obtain ⟨object, isObject, free⟩ := owns
  have own := same kind
  unfold Node.times at own
  rw [isObject] at own
  obtain ⟨object', isObject', sameTime⟩ := Option.map_eq_some_iff.mp own
  exact ⟨object', isObject', (policyOwner_congr sameTime (same (otherKind kind))).trans free⟩

end runs

/-- Of two profiles of one name exactly one owns the policy, which stays the same one while both exist, and the
policy file is only written and removed for the owner, or after the other one is gone. -/
theorem policy_has_one_owner :
    (∀ node : Node, (∀ kind, (node.objects kind).isSome = true) → ∃! kind, node.Owns kind) ∧
    (∀ (start : Node) (steps : List Step),
      (∀ front, front <+: steps → ∀ kind, ((run start front).objects kind).isSome = true) →
        ∀ kind, (run start steps).Owns kind ↔ start.Owns kind) ∧
    ∀ (start : Node) (steps : List Step), ∀ change ∈ (run start steps).changes, change ∈ start.changes ∨
      change.Fair := by
  refine ⟨fun node exist => ?_, fun start steps exist kind => ?_, fun start steps => run_fair steps⟩
  · obtain ⟨profile, isProfile⟩ := Option.isSome_iff_exists.mp (exist .selinuxProfile)
    obtain ⟨raw, isRaw⟩ := Option.isSome_iff_exists.mp (exist .rawSelinuxProfile)
    have ownsProfile : node.Owns .selinuxProfile ↔ ownsPolicyBefore .selinuxProfile profile raw = true := by
      simp [Node.Owns, otherKind, isProfile, isRaw, policyOwner]
    have ownsRaw : node.Owns .rawSelinuxProfile ↔ ownsPolicyBefore .rawSelinuxProfile raw profile = true := by
      simp [Node.Owns, otherKind, isProfile, isRaw, policyOwner]
    have one := @ownsPolicyBefore_iff .selinuxProfile profile raw
    by_cases first : ownsPolicyBefore .selinuxProfile profile raw = true
    · refine ⟨.selinuxProfile, ownsProfile.mpr first, fun kind owns => ?_⟩
      cases kind with
      | selinuxProfile => rfl
      | rawSelinuxProfile => exact absurd (ownsRaw.mp owns) (Bool.eq_false_iff.mp (one.mp first))
    · refine ⟨.rawSelinuxProfile, ownsRaw.mpr ?_, fun kind owns => ?_⟩
      · by_contra second
        exact first (one.mpr (Bool.of_not_eq_true second))
      · cases kind with
        | selinuxProfile => exact absurd (ownsProfile.mp owns) first
        | rawSelinuxProfile => rfl
  · have same : ∀ kind, (run start steps).times kind = start.times kind := fun kind =>
      run_times steps fun front isFront => exist front isFront kind
    exact ⟨owns_of_times fun kind => (same kind).symm, owns_of_times same⟩

end SecurityProfiles.Selinux
