import SecurityProfiles.NodeStatus.Reconcile

namespace SecurityProfiles.NodeStatus

open Annotator (ProfileKind)
open Naming Faulty List

section lowest

variable {first second : ProfileState} {statuses statuses' : List SecurityProfileNodeStatus}

theorem stateOrder_injective (same : stateOrder first = stateOrder second) :
    first = second := by
  cases first <;> cases second <;> first | rfl | cases same

theorem stateOrder_lowerOfTwoStates (lowest : ProfileState) (candidate : Option ProfileState) :
    stateOrder (lowerOfTwoStates (some lowest) candidate) =
      min (stateOrder lowest) (stateOrder (orDefaultState candidate)) := by
  simp only [lowerOfTwoStates]
  split
  · next lower => exact (Nat.min_eq_right (Nat.le_of_lt lower)).symm
  · next higher => exact (Nat.min_eq_left (Nat.le_of_not_lt higher)).symm

theorem lowerOfTwoStates_eq (lowest : ProfileState) (candidate : Option ProfileState) :
    lowerOfTwoStates (some lowest) candidate = lowest ∨
      lowerOfTwoStates (some lowest) candidate = orDefaultState candidate := by
  simp only [lowerOfTwoStates]
  split
  · exact Or.inr rfl
  · exact Or.inl rfl

/-- The state is the least one of the statuses. -/
def IsLowest (state : ProfileState) (statuses : List SecurityProfileNodeStatus) : Prop :=
  (∃ status ∈ statuses, orDefaultState status.status = state) ∧
    ∀ status ∈ statuses, stateOrder state ≤ stateOrder (orDefaultState status.status)

theorem IsLowest.unique (same : ∀ status, status ∈ statuses ↔ status ∈ statuses')
    (isFirst : IsLowest first statuses) (isSecond : IsLowest second statuses') : first = second := by
  obtain ⟨⟨status, member, rfl⟩, leastFirst⟩ := isFirst
  obtain ⟨⟨status', member', rfl⟩, leastSecond⟩ := isSecond
  exact stateOrder_injective
    (Nat.le_antisymm (leastFirst status' ((same status').mpr member'))
      (leastSecond status ((same status).mp member)))

/-- The fold ends in the least of the states, starting with one of them. -/
theorem lowest_foldl (statuses : List SecurityProfileNodeStatus) (start : ProfileState) :
    let lowest := statuses.foldl (fun lowest status => lowerOfTwoStates (some lowest) status.status) start
    (lowest = start ∨ ∃ status ∈ statuses, orDefaultState status.status = lowest) ∧
      stateOrder lowest ≤ stateOrder start ∧
      ∀ status ∈ statuses, stateOrder lowest ≤ stateOrder (orDefaultState status.status) := by
  induction statuses generalizing start with
  | nil => exact ⟨Or.inl rfl, Nat.le_refl _, fun _ member => nomatch member⟩
  | cons status rest ih =>
    obtain ⟨origin, below, least⟩ := ih (lowerOfTwoStates (some start) status.status)
    rw [stateOrder_lowerOfTwoStates] at below
    refine ⟨?_, Nat.le_trans below (Nat.min_le_left _ _), ?_⟩
    · rcases origin with same | ⟨other, member, same⟩
      · rcases lowerOfTwoStates_eq start status.status with isStart | isStatus
        · exact Or.inl (same.trans isStart)
        · exact Or.inr ⟨status, mem_cons_self, (same.trans isStatus).symm⟩
      · exact Or.inr ⟨other, mem_cons_of_mem _ member, same⟩
    · intro other member
      rcases mem_cons.mp member with rfl | member
      · exact Nat.le_trans below (Nat.min_le_right _ _)
      · exact least other member

theorem stateOrder_le_installed (state : ProfileState) : stateOrder state ≤ stateOrder .installed := by
  cases state <;> decide

theorem isLowest_lowestCommonState (some : statuses ≠ []) :
    IsLowest (lowestCommonState statuses) statuses := by
  obtain ⟨origin, _, least⟩ := lowest_foldl statuses lowestState
  refine ⟨?_, least⟩
  rcases origin with same | found
  · -- All statuses are in the state that the fold starts with.
    obtain ⟨status, rest, rfl⟩ := exists_cons_of_ne_nil some
    refine ⟨status, mem_cons_self, stateOrder_injective (Nat.le_antisymm ?_ (least status mem_cons_self))⟩
    rw [lowestCommonState, same]
    exact stateOrder_le_installed _
  · exact found

theorem lowestCommonState_congr (same : ∀ status, status ∈ statuses ↔ status ∈ statuses') :
    lowestCommonState statuses = lowestCommonState statuses' := by
  by_cases some : statuses = []
  · have none' : statuses' = [] := eq_nil_iff_forall_not_mem.mpr fun status member => by
      have other := (same status).mpr member
      rw [some] at other
      cases other
    rw [some, none']
  · have some' : statuses' ≠ [] := by
      obtain ⟨status, member⟩ := exists_mem_of_ne_nil statuses some
      exact ne_nil_of_mem ((same status).mp member)
    exact (isLowest_lowestCommonState some).unique same (isLowest_lowestCommonState some')

/-- Only the installed state has the highest place. -/
theorem IsLowest.all_installed (lowest : IsLowest .installed statuses) :
    ∀ status ∈ statuses, status.status = some .installed := by
  intro status member
  have isInstalled : orDefaultState status.status = .installed :=
    stateOrder_injective (Nat.le_antisymm (stateOrder_le_installed _) (lowest.2 status member))
  cases known : status.status with
  | none =>
    rw [known] at isInstalled
    cases isInstalled
  | some state =>
    rw [known] at isInstalled
    exact congrArg some isInstalled

end lowest

section reflects

variable (sha256 : Sha256) (cluster : Cluster)

/-- There is a status for every node that the daemon is scheduled to. -/
def Enough (statuses : List SecurityProfileNodeStatus) : Prop :=
  ∃ daemonSet, cluster.daemonSet = some daemonSet ∧ daemonSet.desiredNumberScheduled ≤ statuses.length

/-- A written state reflects the statuses of the profile on its nodes. -/
structure Reflects (write : Written) : Prop where
  installed : write.state = .installed →
    Enough cluster (cluster.labelled (kindBasedDNSLengthName sha256 write.kind write.name)) ∧
      ∀ status ∈ cluster.labelled (kindBasedDNSLengthName sha256 write.kind write.name), status.status =
      some .installed
  lowest : Enough cluster (cluster.labelled (kindBasedDNSLengthName sha256 write.kind write.name)) →
    cluster.labelled (kindBasedDNSLengthName sha256 write.kind write.name) ≠ [] →
    IsLowest write.state (cluster.labelled (kindBasedDNSLengthName sha256 write.kind write.name))

def requestedStatus (request : Str) : Option SecurityProfileNodeStatus :=
  match Text.cut '/' request with
  | some (kind, name) =>
    (firstOwnedStatus (cluster.labelled (dnsLengthName sha256 kind (kind ++ '-' :: name))) kind name).bind
      cluster.status?
  | none => cluster.status? request

def ownerProfile (status : SecurityProfileNodeStatus) : Option Profile :=
  status.owner.bind fun (kind, name) => (newProfile kind).bind fun kind => cluster.profile? kind name

/-- A profile without a status gets the state of the node status at hand. This is right if that one is installed
only where there are enough node statuses and all are installed, and is the lowest once there are enough. -/
def InitialReflects (request : Str) : Prop :=
  ∀ status profile, requestedStatus sha256 cluster request = some status →
    ownerProfile cluster status = some profile → profile.status.status = none →
    let statuses := cluster.labelled (kindBasedDNSLengthName sha256 profile.kind profile.name)
    (status.status = some .installed →
      Enough cluster statuses ∧ ∀ other ∈ statuses, other.status = some .installed) ∧
    (Enough cluster statuses → statuses ≠ [] →
      (∃ other ∈ statuses, orDefaultState other.status = orDefaultState status.status) ∧
      ∀ other ∈ statuses, stateOrder (orDefaultState status.status) ≤ stateOrder (orDefaultState other.status))

theorem orDefaultState_eq_installed {state : Option ProfileState} :
    orDefaultState state = .installed ↔ state = some .installed := by
  cases state <;> simp [orDefaultState]

theorem initialReflects_iff (request : Str) : InitialReflects sha256 cluster request ↔ ∀ status profile,
    requestedStatus sha256 cluster request = some status → ownerProfile cluster status = some profile →
    profile.status.status = none →
    Reflects sha256 cluster ⟨profile.kind, profile.name, orDefaultState status.status⟩ := by
  unfold InitialReflects
  refine forall₂_congr fun status profile => imp_congr_right fun _ => imp_congr_right fun _ =>
    imp_congr_right fun _ => ?_
  rw [← orDefaultState_eq_installed]
  exact ⟨fun initial => ⟨initial.1, initial.2⟩, fun reflects => ⟨reflects.installed, reflects.lowest⟩⟩

end reflects

section keeps

variable {sha256 : Sha256} {implementationStatus : ProfileKind → Str → Str} {good : Written → Prop}

/-- All states that were written are good ones. -/
def AllGood (good : Written → Prop) (run : Run) : Prop := ∀ write ∈ run.written, good write

def SameName (profile current : Profile) : Prop := current.kind = profile.kind ∧ current.name = profile.name

/-- The result, if there is one, is the profile of the name. -/
def Names (profile : Profile) (result : Option Profile) : Prop :=
  ∀ current, result = some current → SameName profile current

theorem Names.none (profile : Profile) : Names profile none := fun _ none' => nomatch none'

theorem Names.some {profile current : Profile} (same : SameName profile current) :
    Names profile (some current) := by
  rintro _ ⟨⟩
  exact same

theorem keeps_getProfile (profile : Profile) : Keeps (AllGood good) (getProfile profile.kind profile.name)
    fun answer => Names profile answer.join := by
  refine Keeps.query (Names.none _) fun run _ current found => ?_
  have named := find?_some found
  simp only [Bool.and_eq_true, decide_eq_true_eq] at named
  exact named

theorem keeps_removeFinalizer (profile : Profile) (finalizer : Str) :
    Keeps (AllGood good) (removeFinalizer profile finalizer) (Names profile) := by
  refine Keeps.ifFound (keeps_getProfile profile) (Keeps.pure (.none _)) (Keeps.pure (.some ⟨rfl, rfl⟩))
    fun current named => ?_
  have same := named current rfl
  dsimp only
  split
  · exact Keeps.ifDone (Keeps.change fun _ held => held) (Keeps.pure (.none _)) (Keeps.pure (.some same))
  · exact Keeps.pure (.some same)

theorem keeps_removeNodeFinalizers (finalizers : List Str) (profile : Profile) :
    Keeps (AllGood good) (removeNodeFinalizers profile finalizers) (Names profile) := by
  induction finalizers generalizing profile with
  | nil => exact Keeps.pure (.some ⟨rfl, rfl⟩)
  | cons finalizer rest ih =>
    unfold removeNodeFinalizers
    split
    · refine Keeps.ifSome (keeps_removeFinalizer profile finalizer) (Keeps.pure (.none _)) fun current named => ?_
      obtain ⟨sameKind, sameName⟩ := named current rfl
      refine (ih current).imp (fun _ _ holds => holds) fun _ _ _ later last isLast => ?_
      exact ⟨(later last isLast).1.trans sameKind, (later last isLast).2.trans sameName⟩
    · exact ih profile

theorem keeps_spodNodes (daemonSet : DaemonSet) : Keeps (AllGood good) (spodNodes daemonSet) fun _ => True := by
  unfold spodNodes
  split
  · refine Keeps.bind Keeps.ask fun nodes _ => ?_
    cases nodes <;> exact .done
  · exact .done

theorem keeps_statusesOfDeletedNodes (statuses : List SecurityProfileNodeStatus) :
    Keeps (AllGood good) (statusesOfDeletedNodes statuses) fun _ => True := by
  induction statuses with
  | nil => exact .done
  | cons status rest ih =>
    refine Keeps.ifSome Keeps.ask .done fun found _ => ?_
    refine Keeps.bind ih fun stale _ => ?_
    cases stale <;> exact .done

theorem keeps_removeStatuses (staleNodes nodeNames : List Str) (statuses : List SecurityProfileNodeStatus)
    (profile : Profile) :
    Keeps (AllGood good) (removeStatuses sha256 staleNodes nodeNames profile statuses) fun _ => True := by
  induction statuses generalizing profile with
  | nil => exact .done
  | cons status rest ih =>
    refine Keeps.ifSome (keeps_removeNodeFinalizers _ profile) .done fun current _ => ?_
    exact Keeps.ifDone (Keeps.change fun _ held => held) .done (ih current)

theorem keeps_removeStale (profile : Profile) (stale : List SecurityProfileNodeStatus) :
    Keeps (AllGood good) (removeStale sha256 profile stale) fun _ => True := by
  unfold removeStale
  split
  · exact .done
  · refine Keeps.ifSome Keeps.ask .done fun names _ => ?_
    refine Keeps.bind (keeps_removeStatuses _ _ _ _) fun result _ => ?_
    cases result <;> exact .done

theorem keeps_removeStaleStatuses (profile : Profile) (daemonSet : DaemonSet)
    (statuses : List SecurityProfileNodeStatus) :
    Keeps (AllGood good) (removeStaleStatuses sha256 profile daemonSet statuses) fun _ => True := by
  refine Keeps.bind (keeps_statusesOfDeletedNodes statuses) fun stale _ => ?_
  match stale with
  | none => exact .done
  | some [] =>
    have unscheduled : Keeps (AllGood good) (statusesOfUnscheduledNodes daemonSet statuses) fun _ => True := by
      refine Keeps.bind (keeps_spodNodes daemonSet) fun answer _ => ?_
      match answer with
      | none => exact .done
      | some (_, false) => exact .done
      | some (_, true) => exact .done
    exact Keeps.ifSome unscheduled .done fun stale _ => keeps_removeStale profile stale
  | some (_ :: _) => exact keeps_removeStale profile _

theorem keeps_reconcileDeletingProfile (kind name : Str) :
    Keeps (AllGood good) (reconcileDeletingProfile sha256 kind name) fun _ => True := by
  unfold reconcileDeletingProfile
  cases newProfile kind with
  | none => exact .done
  | some kind =>
    refine Keeps.ifFound Keeps.ask .done .done fun profile _ => ?_
    simp only
    split
    · refine Keeps.ifSome Keeps.ask .done fun names _ => ?_
      have daemon : Keeps (AllGood good) getDS fun _ => True :=
        Keeps.bind Keeps.ask fun _ _ => Keeps.pure trivial
      refine Keeps.ifSome daemon .done fun daemonSet _ => ?_
      refine Keeps.ifSome (keeps_spodNodes daemonSet) .done fun nodes _ => ?_
      refine Keeps.ifSome (keeps_removeNodeFinalizers _ profile) .done fun current _ => ?_
      simp only
      split <;> exact .done
    · exact .done

variable {profile : Profile} {statuses : List SecurityProfileNodeStatus}

/-- A good state is written any number of times. -/
theorem keeps_reconcileStatus {state : ProfileState} (isGood : good ⟨profile.kind, profile.name, state⟩)
    (attempts : Nat) (current : Option Profile) (named : Names profile current) :
    Keeps (AllGood good) (reconcileStatus implementationStatus profile state attempts current) fun _ => True := by
  induction attempts generalizing current with
  | zero => exact .done
  | succ attempts ih =>
    have read : Keeps (AllGood good) (currentProfile profile current) fun answer => Names profile answer.join := by
      cases current with
      | none => exact keeps_getProfile profile
      | some current => exact Keeps.pure named
    refine Keeps.ifFound read .done .done fun current named => ?_
    obtain ⟨sameKind, sameName⟩ := named current rfl
    have updated : Keeps (AllGood good) (updateProfileStatus implementationStatus current state) fun _ => True := by
      unfold updateProfileStatus
      dsimp only
      split
      · exact .done
      · refine Keeps.change fun run held => forall_mem_append.mpr ⟨held, forall_mem_singleton.mpr ?_⟩
        simp only [withState, sameKind, sameName]
        exact isGood
    refine Keeps.ifDone updated ?_ .done
    have asked : Keeps (AllGood good) (Faulty.select fun _ => [()]) fun _ => True :=
      Triple.select (fun _ _ _ => trivial) fun _ _ _ _ _ => trivial
    exact Keeps.ifSome asked .done fun _ _ => ih none (.none _)

theorem keeps_aggregate (requeue : Result)
    (isGood : good ⟨profile.kind, profile.name, lowestCommonState statuses⟩) :
    Keeps (AllGood good) (aggregate sha256 implementationStatus profile statuses requeue) fun _ => True := by
  refine Keeps.ifSome Keeps.ask .done fun names _ => ?_
  refine Keeps.ifSome (keeps_removeNodeFinalizers _ profile) .done fun current named => ?_
  obtain ⟨sameKind, sameName⟩ := named current rfl
  have written : good ⟨current.kind, current.name, lowestCommonState statuses⟩ := by
    rw [sameKind, sameName]
    exact isGood
  refine Keeps.bind (keeps_reconcileStatus written _ _ (.some ⟨rfl, rfl⟩)) fun result _ => ?_
  cases result <;> exact .done

/-- States are aggregated only if there are enough of them. -/
theorem keeps_reconcileStatuses {daemonSet : DaemonSet}
    (isGood : 0 < daemonSet.desiredNumberScheduled → daemonSet.desiredNumberScheduled ≤ statuses.length →
      good ⟨profile.kind, profile.name, lowestCommonState statuses⟩) :
    Keeps (AllGood good) (reconcileStatuses sha256 implementationStatus profile statuses daemonSet)
      fun _ => True := by
  unfold reconcileStatuses
  split
  · exact .done
  next ready =>
  simp only
  split
  · exact .done
  next enough =>
  have wanted : 0 < daemonSet.desiredNumberScheduled := by
    have isReady : daemonSetIsReady daemonSet = true := by
      by_contra notReady
      exact ready (by simp [notReady])
    simp only [daemonSetIsReady, Bool.and_eq_true, decide_eq_true_eq] at isReady
    exact isReady.1
  have isGood := isGood wanted (Int.le_trans (Int.le_of_not_gt enough) (FixedWidth.int32_le _))
  split
  · refine Keeps.bind (keeps_removeStaleStatuses _ _ _) fun result _ => ?_
    match result with
    | .error error => exact .done
    | .ok true => exact .done
    | .ok false => exact keeps_aggregate _ isGood
  · exact keeps_aggregate _ isGood

end keeps

section runs

variable {sha256 : Sha256} {implementationStatus : ProfileKind → Str → Str} {good : Written → Prop}
  {cluster : Cluster}

variable {name request : Str} {status : SecurityProfileNodeStatus} {profile : Profile}

theorem reflects_lowestCommonState {kind : ProfileKind} {daemonSet : DaemonSet}
    (found : cluster.daemonSet = some daemonSet) (wanted : 0 < daemonSet.desiredNumberScheduled)
    (enough : daemonSet.desiredNumberScheduled ≤
      (cluster.labelled (kindBasedDNSLengthName sha256 kind name)).length) :
    Reflects sha256 cluster
      ⟨kind, name, lowestCommonState (cluster.labelled (kindBasedDNSLengthName sha256 kind name))⟩ := by
  have some : cluster.labelled (kindBasedDNSLengthName sha256 kind name) ≠ [] := by
    intro none'
    rw [none', length_nil] at enough
    omega
  have lowest := isLowest_lowestCommonState some
  refine ⟨fun isInstalled => ⟨⟨daemonSet, found, enough⟩, ?_⟩, fun _ _ => lowest⟩
  simp only at isInstalled
  rw [isInstalled] at lowest
  exact lowest.all_installed

theorem asks_owner (status : SecurityProfileNodeStatus) : Triple (AllGood good) (fun run => run.cluster = cluster)
    (getProfileFromStatus status) fun result run => run.cluster = cluster ∧
      ∀ profile, result = .ok profile → ownerProfile cluster status = some profile := by
  unfold getProfileFromStatus ownerProfile
  cases status.owner with
  | none => exact Triple.pure fun _ _ same => ⟨same, fun _ isOk => nomatch isOk⟩
  | some owner =>
    obtain ⟨kind, name⟩ := owner
    simp only [Option.bind_some]
    cases newProfile kind with
    | none => exact Triple.pure fun _ _ same => ⟨same, fun _ isOk => nomatch isOk⟩
    | some kind =>
      refine Triple.asks Run.cluster (·.profile? kind name)
        (Triple.pure fun _ _ same => ⟨same, fun _ isOk => nomatch isOk⟩) ?_
      cases found : cluster.profile? kind name with
      | none => exact Triple.pure fun _ _ same => ⟨same, fun _ isOk => nomatch isOk⟩
      | some profile =>
        refine Triple.pure fun _ _ same => ⟨same, fun profile' isOk => ?_⟩
        cases isOk
        exact found

/-- All states that the program writes reflect the statuses that there are in the cluster when it starts. -/
abbrev KeepsReflecting {α : Type} (sha256 : Sha256) (cluster : Cluster) (program : Faulty Run α) : Prop :=
  Triple (AllGood (Reflects sha256 cluster)) (fun run => run.cluster = cluster) program fun _ _ => True

theorem keeps_reconcileProfileOf
    (initial : profile.status.status = none →
      Reflects sha256 cluster ⟨profile.kind, profile.name, orDefaultState status.status⟩) :
    KeepsReflecting sha256 cluster (reconcileProfileOf sha256 implementationStatus status profile) := by
  unfold reconcileProfileOf
  split
  · next new =>
      refine Triple.bind (Keeps.weaken (keeps_reconcileStatus (initial new) _ _ (.some ⟨rfl, rfl⟩)))
        fun result => ?_
      cases result <;> exact .done
  split
  · exact .done
  split
  · exact .done
  next label =>
  refine Triple.asks Run.cluster (·.labelled status.profileLabel) .done ?_
  have daemon : Triple (AllGood (Reflects sha256 cluster)) (fun run => run.cluster = cluster) getDS
      fun answer _ => ∀ daemonSet, answer = some daemonSet → cluster.daemonSet = some daemonSet :=
    Triple.asks Run.cluster (·.daemonSet) (Triple.pure fun _ _ _ _ none' => nomatch none')
    (Triple.pure fun _ _ _ _ found => found)
  refine Triple.bind daemon fun answer state kept told => ?_
  cases answer with
  | none => exact Keeps.done state kept trivial
  | some daemonSet =>
    refine keeps_reconcileStatuses (fun wanted enough => ?_) state kept trivial
    rw [← not_not.mp label] at enough ⊢
    exact reflects_lowestCommonState (told daemonSet rfl) wanted enough

theorem keeps_reconcileNodeStatus
    (initial : ∀ status profile, cluster.status? name = some status → ownerProfile cluster status = some profile →
      profile.status.status = none →
      Reflects sha256 cluster ⟨profile.kind, profile.name, orDefaultState status.status⟩) :
    KeepsReflecting sha256 cluster (reconcileNodeStatus sha256 implementationStatus name) := by
  refine Triple.asks Run.cluster (·.status? name) .done ?_
  cases found : cluster.status? name with
  | none => exact .done
  | some status =>
    refine Triple.bind (asks_owner status) fun result state kept told => ?_
    cases result with
    | error error => exact Keeps.done state kept trivial
    | ok profile =>
      exact keeps_reconcileProfileOf (initial status profile found (told.2 profile rfl)) state kept told.1

/-- If the state that a profile without status gets reflects all statuses, every state does. -/
theorem keeps_reconcile (initial : InitialReflects sha256 cluster request) :
    KeepsReflecting sha256 cluster (reconcile sha256 implementationStatus request) := by
  unfold reconcile
  rw [initialReflects_iff] at initial
  unfold requestedStatus at initial
  cases cut : Text.cut '/' request with
  | none =>
    rw [cut] at initial
    exact keeps_reconcileNodeStatus initial
  | some parts =>
    obtain ⟨kind, name⟩ := parts
    simp only [cut] at initial
    refine Triple.asks Run.cluster (·.labelled (dnsLengthName sha256 kind (kind ++ '-' :: name))) .done ?_
    have first : KeepsReflecting sha256 cluster (reconcileFirst sha256 implementationStatus
        (firstOwnedStatus (cluster.labelled (dnsLengthName sha256 kind (kind ++ '-' :: name))) kind name)) := by
      unfold reconcileFirst
      split
      · exact .done
      · next first isFirst =>
          refine keeps_reconcileNodeStatus fun status profile found => initial status profile ?_
          rw [isFirst]
          exact found
    refine Triple.bind first fun result => ?_
    cases result with
    | error error => exact .done
    | ok statusResult =>
      refine Keeps.bind (keeps_reconcileDeletingProfile kind name) fun result _ => ?_
      cases result <;> exact .done

variable (implementationStatus) in
/-- A profile without status gets the state, whatever happens afterwards. -/
theorem mem_reconcileStatus (state : ProfileState) (run : Run) (new : profile.status.status = none) :
    ∃ after, (none, after) ∈ reconcileStatus implementationStatus profile state defaultRetrySteps
      (some profile) run ∧
      ⟨profile.kind, profile.name, state⟩ ∈ after.written := by
  have changed : profile.status ≠ (withState implementationStatus profile state).status := by
    intro same
    rw [same] at new
    cases new
  have updated : updateProfileStatus implementationStatus profile state =
      updateStatus (withState implementationStatus profile state) state := if_neg changed
  refine ⟨run.putStatus (withState implementationStatus profile state) state,
    mem_bind (mem_pure _ _) (mem_bind_stopped ?_), mem_append_right _ mem_cons_self⟩
  rw [updated]
  exact mem_change_stopped _ run

variable (sha256 implementationStatus)

theorem mem_reconcileNodeStatus (found : cluster.status? name = some status)
    (owned : ownerProfile cluster status = some profile) (new : profile.status.status = none) :
    ∃ after, (none, after) ∈ reconcileNodeStatus sha256 implementationStatus name ⟨cluster, []⟩ ∧
      ⟨profile.kind, profile.name, orDefaultState status.status⟩ ∈ after.written := by
  obtain ⟨after, wrote, isWritten⟩ :=
    mem_reconcileStatus implementationStatus (orDefaultState status.status) ⟨cluster, []⟩ new
  refine ⟨after, mem_bind (mem_query _ _) ?_, isWritten⟩
  simp only [found]
  have owner : (some (.ok profile), ⟨cluster, []⟩) ∈ getProfileFromStatus status ⟨cluster, []⟩ := by
    unfold ownerProfile at owned
    obtain ⟨⟨kind, name⟩, isOwner, owned⟩ := Option.bind_eq_some_iff.mp owned
    obtain ⟨known, isKind, owned⟩ := Option.bind_eq_some_iff.mp owned
    unfold getProfileFromStatus
    simp only [isOwner, isKind]
    refine mem_bind (mem_query _ _) ?_
    simp only [owned, Option.join_some]
    exact mem_pure _ _
  refine mem_bind owner ?_
  unfold reconcileProfileOf
  simp only [if_pos new]
  exact mem_bind_stopped wrote

theorem mem_reconcile (requested : requestedStatus sha256 cluster request = some status)
    (owned : ownerProfile cluster status = some profile) (new : profile.status.status = none) :
    ∃ outcome ∈ reconcile sha256 implementationStatus request ⟨cluster, []⟩,
      ⟨profile.kind, profile.name, orDefaultState status.status⟩ ∈ outcome.2.written := by
  unfold requestedStatus at requested
  unfold reconcile
  cases cut : Text.cut '/' request with
  | none =>
    rw [cut] at requested
    obtain ⟨after, member, isWritten⟩ := mem_reconcileNodeStatus sha256 implementationStatus requested owned new
    exact ⟨_, member, isWritten⟩
  | some parts =>
    obtain ⟨kind, name⟩ := parts
    simp only [cut] at requested
    obtain ⟨first, isFirst, found⟩ := Option.bind_eq_some_iff.mp requested
    obtain ⟨after, member, isWritten⟩ := mem_reconcileNodeStatus sha256 implementationStatus found owned new
    refine ⟨(none, after), mem_bind (mem_query _ _) ?_, isWritten⟩
    refine mem_bind_stopped ?_
    simp only [reconcileFirst, isFirst]
    exact member

end runs

/-- The states that are written to profiles reflect the statuses on all nodes exactly if the state that a profile
without status gets does: installed is written only if there are enough statuses and all of them are installed, and
the lowest state once there are enough. That one does not depend on how the statuses are listed. -/
theorem written_states_reflect_iff (sha256 : Sha256) (implementationStatus : ProfileKind → Str → Str)
    (cluster : Cluster) (request : Str) :
    ((∀ outcome ∈ reconcile sha256 implementationStatus request ⟨cluster, []⟩, ∀ write ∈ outcome.2.written,
      Reflects sha256 cluster write) ↔ InitialReflects sha256 cluster request) ∧
    ∀ statuses statuses' : List SecurityProfileNodeStatus, statuses.Perm statuses' →
      lowestCommonState statuses = lowestCommonState statuses' := by
  refine ⟨⟨fun reflects => (initialReflects_iff ..).mpr fun status profile requested owned new => ?_,
    fun initial outcome member write isWritten => ?_⟩, ?_⟩
  · obtain ⟨outcome, member, isWritten⟩ := mem_reconcile sha256 implementationStatus requested owned new
    exact reflects outcome member _ isWritten
  · have start : AllGood (Reflects sha256 cluster) ⟨cluster, []⟩ := fun _ none' => nomatch none'
    exact (keeps_reconcile initial _ start rfl outcome member).1 write isWritten
  · intro statuses statuses' same
    exact lowestCommonState_congr fun status => same.mem_iff

section cluster

/-- Two nodes of a profile without status, which is installed on the first one only. -/
def halfInstalled : Cluster where
  statuses :=
    [⟨"first".toList, some ("SeccompProfile".toList, "p".toList), "SeccompProfile-p".toList, "a".toList,
      some .installed⟩,
      ⟨"second".toList, some ("SeccompProfile".toList, "p".toList), "SeccompProfile-p".toList, "b".toList,
      some .pending⟩]
  profiles := [⟨.seccomp, "p".toList, 1, [], false, ⟨none, [], []⟩⟩]
  daemonSet := some ⟨1, 1, 2, 2, 2, 2, 0, 0, true⟩
  nodes := ["a".toList, "b".toList]
  podNodes := ["a".toList, "b".toList]

theorem halfInstalled_reported : ∃ outcome ∈ reconcile plainHash (fun _ _ => []) "first".toList ⟨halfInstalled, []⟩,
    ⟨.seccomp, "p".toList, .installed⟩ ∈ outcome.2.written ∧
    ∃ status ∈ halfInstalled.labelled (kindBasedDNSLengthName plainHash .seccomp "p".toList),
      status.status ≠ some .installed := by
  have requested : requestedStatus plainHash halfInstalled "first".toList = halfInstalled.statuses.head? := by
    decide
  have owned : ownerProfile halfInstalled
      ⟨"first".toList, some ("SeccompProfile".toList, "p".toList), "SeccompProfile-p".toList, "a".toList,
        some .installed⟩ = halfInstalled.profiles.head? := by decide
  have pending : ∃ status ∈ halfInstalled.labelled (kindBasedDNSLengthName plainHash .seccomp "p".toList),
      status.status ≠ some .installed := by decide
  obtain ⟨outcome, member, isWritten⟩ := mem_reconcile plainHash (fun _ _ => []) requested owned rfl
  exact ⟨outcome, member, isWritten, pending⟩

end cluster

end SecurityProfiles.NodeStatus
