import SecurityProfiles.Merging.KeepsData

namespace SecurityProfiles

open VersionedStore List

namespace MergeScope

variable {scope : MergeScope} {merger : Merger} {replies : Contract.Replies Key Object} {server : Server Key Object}

def contract (scope : MergeScope) : Contract Key Object where
  inv := scope.KeepsData
  rely := scope.growth.Grows
  guar first second := scope.KeepsData first →
    scope.growth.Grows first second ∧ scope.KeepsData second
  rely_refl := Growth.Grows.refl
  rely_trans := Growth.Grows.trans
  rely_seen grows := grows.seen
  guar_refl server keeps := ⟨Growth.Grows.refl server, keeps⟩
  guar_rely keeps guaranteed := guaranteed keeps

/-- A successful change leaves a profile that belongs to the recording. -/
theorem updateMergedProfile_owned {partialSpec : Spec} {coverage : Option SyscallCoverage}
    {existing : Option (Stored Object)} {object : Object}
    (ok : updateMergedProfile merger scope.recording scope.kind partialSpec coverage existing = .ok object) :
    ¬ scope.ForeignTo object := by
  obtain ⟨checked, _, labels⟩ := updateMergedProfile_ok ok
  rw [ForeignTo, labels]
  cases existing with
  | none => simp [newProfileObject, Labels.Foreign]
  | some stored => exact checkRecordingOwner_ok.mp checked

theorem updateMergedProfile_adds (permissive : merger.Permissive scope.covers) (partialSpec : Spec)
    (coverage : Option SyscallCoverage) :
    scope.growth.Adds (updateMergedProfile merger scope.recording scope.kind partialSpec coverage)
      (True, partialSpec.Permits scope.covers) where
  adds ok := ⟨fun _ => updateMergedProfile_owned ok,
    mergeInto_within permissive.increases (updateMergedProfile_ok ok).2.1⟩
  keeps {stored object} ok good := by
    have owned := checkRecordingOwner_ok.mp (updateMergedProfile_ok ok).1
    exact ⟨fun _ => updateMergedProfile_owned ok,
      mergeInto_keeps permissive.increases (updateMergedProfile_ok ok).2.1 (good.resolve_left owned)⟩
  goodNew _ notEarlier := Or.inr notEarlier
  goodNext ok good := Or.inr (good.resolve_left (checkRecordingOwner_ok.mp (updateMergedProfile_ok ok).1))

theorem updateMergedProfile_apart {partialSpec : Spec} {coverage : Option SyscallCoverage}
    {existing : Option (Stored Object)} {object : Object} {key : Key}
    (apart : ∀ stored, existing = some stored → scope.Apart key stored.body)
    (ok : updateMergedProfile merger scope.recording scope.kind partialSpec coverage existing = .ok object) :
    scope.Apart key object := by
  have labels := (updateMergedProfile_ok ok).2.2
  cases existing with
  | none =>
    intro selected
    cases key <;> simp [selectsPartial, Labels.partialOf, labels, newProfileObject] at selected
  | some stored => exact (apart stored rfl).of_labels labels.symm

/-- Whatever the server has of the merged profile, a write that succeeds leaves it with all that the partial profile
permits. -/
theorem writes_mergedProfile (permissive : merger.Permissive scope.covers) {container : String}
    (isContainer : scope.containers container) (partialSpec : Spec) (coverage : Option SyscallCoverage) :
    scope.contract.Writes (scope.mergedKey container)
      (updateMergedProfile merger scope.recording scope.kind partialSpec coverage)
      (scope.growth.Ended (scope.mergedKey container)
        (updateMergedProfile merger scope.recording scope.kind partialSpec coverage)
          (True, partialSpec.Permits scope.covers)) := by
  have isKey : scope.IsMergedKey (scope.mergedKey container) := ⟨container, isContainer, rfl⟩
  have adds : scope.growth.Adds
      (updateMergedProfile merger scope.recording scope.kind partialSpec coverage)
        (True, partialSpec.Permits scope.covers) :=
    updateMergedProfile_adds permissive partialSpec coverage
  have notPartial : ∀ {server : Server Key Object} {current : Stored Object} {container' : String},
      scope.KeepsData server → server.Holds (scope.mergedKey container) current →
      ¬ scope.PartialOf container' (scope.mergedKey container) current.body :=
    fun keeps held isPartial => (isPartial.selects_container (keeps.apart held.seen)).1 isKey
  refine ⟨fun _ _ _ grows _ ended => ended.later isKey grows, fun _ => ⟨by simp, trivial⟩, fun _ seen refused =>
    ⟨by simp, _, seen, refused⟩, fun keeps seen computed =>
      ⟨fun _ => adds.unchanged isKey keeps.growth seen computed, trivial⟩, ?_, ?_⟩
  · intro server changed body keeps computed created
    have grown := adds.create keeps.growth computed created
    obtain ⟨absent, known, rfl⟩ := Server.create_ok created
    have notHeld : ∀ {current}, ¬ server.Holds (scope.mergedKey container) current := by
      intro current held
      rw [Server.Holds, absent] at held
      cases held
    refine ⟨fun _ => ⟨grown.1, keeps.put ⟨grown.1, grown.2.1⟩ (updateMergedProfile_apart (by simp) computed)
      (fun elsewhere => absurd isKey elsewhere) (fun _ held => absurd held notHeld) fun held =>
        absurd held notHeld⟩,
      fun _ => grown.2.2, trivial⟩
  · rintro server changed body current keeps held computed ⟨known, rfl⟩
    have grown := adds.update isKey keeps.growth held computed known
    have apart : scope.Apart (scope.mergedKey container) body :=
      updateMergedProfile_apart (fun stored same => Option.some.inj same ▸ keeps.apart held.seen) computed
    have owned : ¬ scope.ForeignTo current.body := checkRecordingOwner_ok.mp (updateMergedProfile_ok computed).1
    refine ⟨fun _ => ⟨grown.1, keeps.put ⟨grown.1, grown.2.1⟩ apart (fun elsewhere => absurd isKey elsewhere)
      (fun _ heldLatest isForeign => absurd (held.unique heldLatest ▸ isForeign) owned)
      fun held _ isPartial => absurd isPartial (notPartial keeps held)⟩, fun _ => grown.2.2, trivial⟩

/-- What is known of the listed profiles. -/
def WasListed (scope : MergeScope) (listed : List Listed) (server : Server Key Object) : Prop :=
  ∀ profile ∈ listed, server.Seen profile.1 profile.2 ∧
    selectsPartial scope.recording scope.kind profile.1 profile.2.body = true

theorem WasListed.later {listed : List Listed} {later : Server Key Object}
    (wasListed : scope.WasListed listed server)
    (grows : scope.growth.Grows server later) : scope.WasListed listed later :=
  fun profile member => ⟨grows.seen (wasListed profile member).1, (wasListed profile member).2⟩

theorem WasListed.partialOf {listed : List Listed} (wasListed : scope.WasListed listed server) {profile : Listed}
    (member : profile ∈ listed) (named : getContainerID profile ≠ "") :
    scope.PartialOf (getContainerID profile) profile.1 profile.2.body := by
  refine ⟨(wasListed profile member).2, ?_, named⟩
  cases label : profile.2.body.labels.container with
  | none => simp [getContainerID, label] at named
  | some container => simp [getContainerID, label]

/-- The profile was listed, and its rules are merged unless it has no container. -/
structure Deletable (scope : MergeScope) (profile : Listed) (server : Server Key Object) : Prop where
  seen : server.Seen profile.1 profile.2
  selected : selectsPartial scope.recording scope.kind profile.1 profile.2.body = true
  merged : getContainerID profile ≠ "" →
    scope.Merged (getContainerID profile) profile.2.body.spec server

theorem Deletable.isContainer {profile : Listed} (deletable : scope.Deletable profile server)
    (keeps : scope.KeepsData server) (named : getContainerID profile ≠ "") :
    scope.containers (getContainerID profile) := by
  have wasListed : scope.WasListed [profile] server := by
    intro other member
    cases mem_singleton.mp member
    exact ⟨deletable.seen, deletable.selected⟩
  exact ((wasListed.partialOf mem_cons_self named).selects_container (keeps.apart deletable.seen)).2

theorem Deletable.later {profile : Listed} {later : Server Key Object} (deletable : scope.Deletable profile server)
    (keeps : scope.KeepsData server) (grows : scope.growth.Grows server later) : scope.Deletable profile later :=
  ⟨grows.seen deletable.seen, deletable.selected,
    fun named => (deletable.merged named).later (deletable.isContainer keeps named) grows⟩

/-- A deletion hits the listed object, because it names its identity. -/
theorem keepsData_delete {changed : Server Key Object} {profile : Listed} (keeps : scope.KeepsData server)
    (deletable : scope.Deletable profile server) (deleted : server.delete profile.1 profile.2.uid = .ok changed) :
    scope.growth.Grows server changed ∧ scope.KeepsData changed := by
  have elsewhere := (keeps.apart deletable.seen deletable.selected).1
  obtain ⟨current, known, held, sameUid, rfl⟩ := Server.delete_ok deleted
  have grown := keeps.growth.put { current with deleting := true } known (fun isKey => absurd isKey elsewhere)
    (fun isKey => absurd isKey elsewhere)
  have apart : scope.Apart profile.1 current.body := keeps.apart held.seen
  refine ⟨grown.1, keeps.put grown apart ?_ (fun isKey => absurd isKey elsewhere) ?_⟩
  · intro earlier _ seen same
    have unchanged := keeps.same elsewhere seen held.seen same
    exact unchanged
  · intro latest container heldLatest _ isPartial
    obtain ⟨labels, spec⟩ := keeps.same elsewhere held.seen deletable.seen sameUid
    rw [← held.unique heldLatest] at isPartial ⊢
    have isContainer : getContainerID profile = container := by
      simp [getContainerID, ← labels, isPartial.labelled]
    subst isContainer
    exact Or.inr (spec ▸ deletable.merged isPartial.named)

theorem sound_deletePartialProfiles {profiles : List Listed} {errors : List ApiError}
    (keeps : scope.KeepsData server) (deletable : ∀ profile ∈ profiles, scope.Deletable profile server) :
    scope.contract.Sound replies (fun _ _ => True) (deletePartialProfiles profiles errors)
      server := by
  induction profiles generalizing errors server with
  | nil => exact fun _ _ _ => trivial
  | cons profile rest ih =>
    have first := deletable profile mem_cons_self
    have others : ∀ {later}, scope.growth.Grows server later →
        ∀ other ∈ rest, scope.Deletable other later :=
      fun grows other member => (deletable other (mem_cons_of_mem _ member)).later keeps grows
    apply Contract.sound_call
    · intro later changed grows keepsLater deleted _
      exact keepsData_delete keepsLater (first.later keeps grows) deleted
    · intro later error grows keepsLater
      cases error <;> exact ih keepsLater (others grows)
    · intro later changed _ grows keepsLater deleted
      have kept := keepsData_delete keepsLater (first.later keeps grows) deleted
      exact ih kept.2 (others (grows.trans kept.1))

/-- The containers that were not skipped have the rules of their listed profiles in their merged profiles. -/
def AllMerged (scope : MergeScope) (listed : List Listed) (done : List String) (server : Server Key Object) :
    Except MergeRunError (List String) → Prop
  | .ok skipped => ∀ profile ∈ listed, getContainerID profile ∈ done → getContainerID profile ∉ skipped →
      scope.Merged (getContainerID profile) profile.2.body.spec server
  | .error _ => True

variable {listed : List Listed}

theorem allMerged_stable {done : List String} (isContainer : ∀ container ∈ done, scope.containers container) :
    scope.contract.Stable (scope.AllMerged listed done) := by
  intro first second result grows _ merged
  cases result with
  | error error => trivial
  | ok skipped =>
    intro profile member inDone notSkipped
    exact (merged profile member inDone notSkipped).later (isContainer _ inDone) grows

theorem mergedProfileName_key {profile : Listed} {container : String}
    (labelled : getContainerID profile = container) (named : container ≠ "") :
    Key.profile scope.kind (mergedProfileName scope.recording.name profile.1.name profile.2.body.labels) =
      scope.mergedKey container := by
  subst labelled
  have suffix : profile.2.body.labels.container.getD "" ≠ "" := named
  simp only [mergedProfileName, if_neg suffix, mergedKey, getContainerID]

theorem sound_mergeContainer (permissive : merger.Permissive scope.covers) {container : String}
    (isContainer : scope.containers container) {profile : Listed} (labelled : getContainerID profile = container)
    (named : container ≠ "") (merged : Spec) (coverage : Option SyscallCoverage) (keeps : scope.KeepsData server) :
    scope.contract.Sound replies
      (fun later result => result = .ok () → scope.Merged container merged later)
      (createUpdateProfile merger scope.recording
        (mergedProfileName scope.recording.name profile.1.name profile.2.body.labels)
        merged scope.kind coverage) server := by
  rw [createUpdateProfile, mergedProfileName_key labelled named]
  have writes : scope.contract.Writes _ _ _ :=
    writes_mergedProfile permissive isContainer merged coverage
  exact (Contract.sound_retryOnError writes.stable (fun later _ => writes.sound later) 9 server keeps).imp
    fun later result _ ended ok => merged_iff_contains.mpr (ended.contains ok)

theorem AllMerged.next {done skipped : List String} {container : String}
    (soFar : scope.AllMerged listed done server (.ok skipped))
    (here : ∀ profile ∈ profilesOf listed container, container ∉ skipped →
      scope.Merged container profile.2.body.spec server) :
    scope.AllMerged listed (done ++ [container]) server (.ok skipped) := by
  intro profile member inDone notSkipped
  rcases mem_append.mp inDone with earlier | isHere
  · exact soFar profile member earlier notSkipped
  · have labelled := mem_singleton.mp isHere
    rw [labelled] at notSkipped ⊢
    exact here profile (mem_profilesOf.mpr ⟨member, labelled⟩) notSkipped

theorem AllMerged.skip {done skipped : List String} (container : String)
    (soFar : scope.AllMerged listed done server (.ok skipped)) :
    scope.AllMerged listed done server (.ok (container :: skipped)) :=
  fun profile member inDone notSkipped =>
    soFar profile member inDone fun earlier => notSkipped (mem_cons_of_mem _ earlier)

/-- The loop over the containers. What was merged before stays merged, whatever others do meanwhile. -/
theorem sound_mergeContainers (permissive : merger.Permissive scope.covers) {listed : List Listed}
    {rest done skipped : List String} (isContainer : ∀ container ∈ done ++ rest, scope.containers container)
    (named : ∀ container ∈ rest, container ≠ "") (keeps : scope.KeepsData server)
    (soFar : scope.AllMerged listed done server (.ok skipped)) :
    scope.contract.Sound replies (scope.AllMerged listed (done ++ rest))
      (mergeContainers merger scope.recording scope.kind listed rest skipped) server := by
  induction rest generalizing done skipped server with
  | nil =>
    rw [append_nil] at isContainer ⊢
    exact (allMerged_stable isContainer).sound_ret soFar
  | cons container rest ih =>
    have isContainerHere := isContainer container (by simp)
    have isContainerDone : ∀ earlier ∈ done, scope.containers earlier :=
      fun earlier member => isContainer earlier (mem_append_left _ member)
    rw [append_cons] at isContainer ⊢
    have stable : scope.contract.Stable
        (scope.AllMerged listed (done ++ [container] ++ rest)) := allMerged_stable isContainer
    unfold mergeContainers
    split
    · exact stable.sound_ret trivial
    next first others group =>
    dsimp only
    split
    · exact stable.sound_ret trivial
    next merged mergedOk =>
    have labelled : getContainerID first = container := (mem_profilesOf.mp (group ▸ mem_cons_self)).2
    have written : ∀ coverage, scope.contract.Sound replies _ _ server := fun coverage =>
      sound_mergeContainer permissive isContainerHere labelled (named container mem_cons_self) merged coverage keeps
    refine Contract.Sound.bind (((written _).relied (Growth.Grows.refl server)).imp ?_) keeps
    rintro later result keepsLater ⟨grows, ended⟩
    have soFarLater : scope.AllMerged listed done later (.ok skipped) :=
      allMerged_stable isContainerDone _ _ _ grows keepsLater soFar
    have namedRest : ∀ other ∈ rest, other ≠ "" := fun other member => named other (mem_cons_of_mem _ member)
    rcases result with ((owner | _ | _ | _) | _) | _
    · -- the target belongs to somebody else
      refine ih isContainer namedRest keepsLater ((soFarLater.skip container).next ?_)
      intro profile _ notSkipped
      exact absurd mem_cons_self notSkipped
    · exact stable.sound_ret trivial
    · exact stable.sound_ret trivial
    · exact stable.sound_ret trivial
    · exact stable.sound_ret trivial
    · refine ih isContainer namedRest keepsLater (soFarLater.next ?_)
      intro profile member _
      obtain ⟨target, held, owned, within⟩ := ended rfl
      rw [group] at member
      exact ⟨target, held, owned, (mergeMergeableProfiles_within permissive.increases mergedOk _
        (mem_map_of_mem member)).trans within⟩

/-- A whole run of the merger keeps to the contract, at every step of it. -/
theorem sound_mergeTypedProfiles (permissive : merger.Permissive scope.covers) (range : RangeOrder) :
    scope.contract.Sound replies (fun _ _ => True)
      (mergeTypedProfiles merger scope.recording scope.kind range) server := by
  apply Contract.sound_list
  · exact fun _ _ _ _ _ _ _ => trivial
  intro later view member _ keeps _
  show scope.contract.Sound replies (fun _ _ => True)
    (mergeListed merger scope.recording scope.kind range _) later
  generalize listing : Server.listing view (selectsPartial scope.recording scope.kind) = listed
  have wasListed : scope.WasListed listed later := by
    intro profile listedHere
    rw [← listing] at listedHere
    obtain ⟨found, selected⟩ := Server.mem_listing.mp listedHere
    exact ⟨⟨view, member, found⟩, selected⟩
  unfold mergeListed
  split
  · exact fun _ _ _ => trivial
  split
  · exact fun _ _ _ => trivial
  have order : ∀ {container}, container ∈ range.order (containersOf listed) ↔
      container ≠ "" ∧ ∃ profile ∈ listed, getContainerID profile = container :=
    (range.perm _).mem_iff.trans mem_containersOf
  have isContainer : ∀ container ∈ [] ++ range.order (containersOf listed), scope.containers container := by
    intro container listedHere
    obtain ⟨named, profile, member, rfl⟩ := order.mp listedHere
    exact ((wasListed.partialOf member named).selects_container (keeps.apart (wasListed profile member).1)).2
  have merges : scope.contract.Sound replies _
      (mergeContainers merger scope.recording scope.kind listed (range.order (containersOf listed)) []) later :=
    sound_mergeContainers permissive isContainer (fun container listedHere => (order.mp listedHere).1) keeps
      (fun _ _ inDone => by cases inDone)
  refine Contract.Sound.bind ((merges.relied (Growth.Grows.refl later)).imp ?_) keeps
  intro final result keepsFinal ⟨grows, merged⟩
  cases result with
  | error error => exact fun _ _ _ => trivial
  | ok skipped =>
    refine Contract.Sound.bind ((sound_deletePartialProfiles keepsFinal ?_).imp ?_) keepsFinal
    · intro profile member
      obtain ⟨member, notSkipped⟩ := mem_filter.mp member
      obtain ⟨seen, selected⟩ := wasListed.later grows profile member
      refine ⟨seen, selected, fun named => ?_⟩
      exact merged profile member (order.mpr ⟨named, profile, member, rfl⟩) (of_decide_eq_true notSkipped)
    · intro _ errors _ _
      cases errors <;> exact fun _ _ _ => trivial

end MergeScope

end SecurityProfiles
