import SecurityProfiles.Merging.NoDataLost

namespace SecurityProfiles

open VersionedStore

namespace MergeScope

variable {scope : MergeScope} {server : Server Key Object}

/-- What happens next to the merger: profiles are created, their metadata is updated, and the nodes finish the
deletion of partial profiles. -/
def OthersRecord (scope : MergeScope) (server : Server Key Object) : Server.Disturbance Key Object → Prop
  | .call (.create key object) => scope.Apart key object
  | .call (.update key _ object) => ∀ current, server.Holds key current →
      object.labels = current.body.labels ∧ object.spec = current.body.spec
  | .call (.delete _ _) => False
  | .call (.get _) => True
  | .call (.list _) => True
  | .reap key => ¬ scope.IsMergedKey key
  | .wait _ => True

section

variable (keeps : scope.KeepsData server)
include keeps

theorem keepsData_create {changed : Server Key Object} {key : Key} {object : Object}
    (apart : scope.Apart key object) (created : server.create key object = .ok changed) :
    scope.growth.Grows server changed ∧ scope.KeepsData changed := by
  obtain ⟨absent, known, rfl⟩ := Server.create_ok created
  have notHeld : ∀ {current}, ¬ server.Holds key current := by
    intro current held
    rw [Server.Holds, absent] at held
    cases held
  have grown := keeps.growth.put
    { uid := server.revision + 1, version := 0, created := server.clock, deleting := false, body := object } known
    (fun _ => Or.inr keeps.growth.time) (fun _ held => absurd held notHeld)
  refine ⟨grown.1, keeps.put grown apart ?_ (fun _ held => absurd held notHeld) fun held => absurd held notHeld⟩
  intro earlier _ seen same
  have bound := seen.uid_le
  have isNew : earlier.uid = server.revision + 1 := same
  omega

theorem keepsData_update {changed : Server Key Object} {key : Key} {version : Nat} {object : Object}
    (unchanged : ∀ current, server.Holds key current → object.labels = current.body.labels ∧
      object.spec = current.body.spec)
    (updated : server.update key version object = .ok changed) :
    scope.growth.Grows server changed ∧ scope.KeepsData changed := by
  obtain ⟨current, known, held, _, rfl⟩ := Server.update_ok updated
  obtain ⟨labels, spec⟩ := unchanged current held
  have grown := keeps.growth.put { current with body := object } known
    (fun isKey => by
      have good := keeps.growth.good isKey held
      simpa only [growth, ForeignTo, Stored.stamp, labels] using good)
    (fun {latest} _ heldLatest => by
      rw [← held.unique heldLatest]
      simp only [growth, ForeignTo, labels, spec, le_refl])
  have apart : scope.Apart key current.body := keeps.apart held.seen
  refine ⟨grown.1, keeps.put grown (apart.of_labels labels.symm) ?_ ?_ ?_⟩
  · intro earlier elsewhere seen same
    obtain ⟨labels', spec'⟩ := keeps.same elsewhere seen held.seen same
    exact ⟨labels'.trans labels.symm, spec'.trans spec.symm⟩
  · intro latest _ heldLatest isForeign
    rw [← held.unique heldLatest] at isForeign
    simpa only [ForeignTo, labels] using isForeign
  · intro latest container heldLatest alive _
    rw [← held.unique heldLatest] at alive ⊢
    exact Or.inl ⟨rfl, alive⟩

/-- Others do no harm. -/
theorem OthersRecord.keepsData {disturbance : Server.Disturbance Key Object}
    (others : scope.OthersRecord server disturbance) :
    scope.growth.Grows server (server.disturb disturbance) ∧
      scope.KeepsData (server.disturb disturbance) := by
  have idle : scope.growth.Grows server server ∧ scope.KeepsData server :=
    ⟨Growth.Grows.refl server, keeps⟩
  cases disturbance with
  | wait ticks =>
    have grown := keeps.growth.disturb (fun _ _ => rfl : ∀ key, _ →
      (server.disturb (.wait ticks)).objects.lookup key = server.objects.lookup key)
    exact ⟨grown.1, grown.2, keeps.apart, keeps.same, keeps.foreign, keeps.kept⟩
  | reap key =>
    rcases server.reap_cases key with same | ⟨current, held, deleting, same⟩
    · simpa only [Server.disturb, same] using idle
    · have grown := keeps.growth.disturb (fun key' isKey => by
        have other : key' ≠ key := fun atKey => others (atKey ▸ isKey)
        simp only [Server.disturb, same, Server.drop, AList.lookup_erase_ne other] : ∀ key', _ →
          (server.disturb (.reap key)).objects.lookup key' = server.objects.lookup key')
      simp only [Server.disturb, same] at grown ⊢
      exact ⟨grown.1, keeps.drop others held deleting grown⟩
  | call request =>
    simp only [Server.disturb]
    rcases server.after_cases request with same | effect
    · simpa only [same] using idle
    generalize server.after request = changed at effect
    cases request with
    | get key => cases effect; exact idle
    | list selects => cases effect; exact idle
    | create key object => exact keepsData_create keeps others effect
    | update key version object => exact keepsData_update keeps others effect
    | delete key uid => exact others.elim

end

/-- Runs of the merger for one kind, each with an order of its own for the containers. -/
def rules (scope : MergeScope) : Rules Key Object RangeOrder where
  starts _ _ := True
  replies _ _ _ _ := True
  others := scope.OthersRecord

theorem keepsData_start (fresh : server.past = []) (time : scope.recording.created ≤ server.clock)
    (apart : ∀ key stored, server.Holds key stored → scope.Apart key stored.body)
    (notEarlier : ∀ key stored, scope.IsMergedKey key → server.Holds key stored → scope.ForeignTo stored.body ∨
      scope.recording.created ≤ stored.created) :
    scope.KeepsData server := by
  have held : ∀ {key stored}, server.Seen key stored → server.Holds key stored := by
    intro key stored ⟨view, member, found⟩
    rw [Server.views, fresh, List.mem_singleton] at member
    subst member
    exact found
  refine ⟨⟨time, fun isKey held => notEarlier _ _ isKey held, fun {_ stored} _ seen =>
    ⟨stored, held seen, le_refl _⟩⟩, fun seen => apart _ _ (held seen), ?_, ?_, ?_⟩
  · intro key first second _ seenFirst seenSecond _
    rw [(held seenFirst).unique (held seenSecond)]
    exact ⟨rfl, rfl⟩
  · intro key stored current _ seen isForeign heldCurrent
    rwa [← (held seen).unique heldCurrent]
  · intro key stored container seen _ live
    exact Or.inl ⟨stored, held seen, rfl, live⟩

end MergeScope

/-- Every partial profile with a container is stored still, or the merged profile of its container permits all that
its rules permit, given that the unions of the merger library never permit less than their arguments. A run deletes
what it listed, under the identity it was listed with. If the merged profile of a container was ever seen to belong
to somebody else, which makes the merger skip the container, its partial profiles are all kept. -/
theorem merging_keeps_recorded_data {scope : MergeScope} {merger : Merger}
    (permissive : merger.Permissive scope.covers) {first world : World Key Object RangeOrder _}
    (idle : first.clients = []) (fresh : first.server.past = [])
    (time : scope.recording.created ≤ first.server.clock)
    (apart : ∀ key stored, first.server.Holds key stored → scope.Apart key stored.body)
    (notEarlier : ∀ key stored, scope.IsMergedKey key → first.server.Holds key stored →
      scope.ForeignTo stored.body ∨ scope.recording.created ≤ stored.created)
    (reach : World.Reach (mergeTypedProfiles merger scope.recording scope.kind) scope.rules first world) :
    (∀ key stored container, world.server.Seen key stored → scope.PartialOf container key stored.body →
      stored.deleting = false →
        Live key stored.uid world.server ∨ scope.Merged container stored.body.spec world.server) ∧
    (∀ range, ∃ next, mergeTypedProfiles merger scope.recording scope.kind range =
        .call (.list (selectsPartial scope.recording scope.kind)) next ∧
      (∀ listed, (next (.ok listed)).DeletesOnly fun key uid => ∃ stored, (key, stored) ∈ listed ∧
        stored.uid = uid) ∧
      ∀ error, (next (.error error)).DeletesOnly fun _ _ => False) ∧
    ∀ container target, scope.containers container → world.server.Seen (scope.mergedKey container) target →
      scope.ForeignTo target.body →
        ∀ key stored, world.server.Seen key stored → scope.PartialOf container key stored.body →
          stored.deleting = false → Live key stored.uid world.server := by
  have kept : scope.contract.Kept scope.rules (fun _ _ _ => True) first world :=
    Contract.kept_of_reach (MergeScope.keepsData_start fresh time apart notEarlier) idle
      (fun _ range _ _ => MergeScope.sound_mergeTypedProfiles permissive range)
      (fun _ _ keeps others => others.keepsData keeps) reach
  have keeps : scope.KeepsData world.server := kept.inv
  refine ⟨fun _ _ _ seen isPartial live => keeps.kept seen isPartial live, ?_, ?_⟩
  · intro range
    exact ⟨_, rfl, fun listed => mergeListed_deletesOnly merger scope.recording scope.kind range listed,
      fun _ => trivial⟩
  · intro container target isContainer seenTarget isForeign key stored seen isPartial live
    rcases keeps.kept seen isPartial live with alive | ⟨current, held, owned, _⟩
    · exact alive
    · exact absurd (keeps.foreign ⟨container, isContainer, rfl⟩ seenTarget isForeign held) owned

def inOrder : RangeOrder := ⟨id, fun keys => .refl keys⟩

def webRecording : Recording where
  name := "rec"
  namespaceName := "ns"
  created := 10

def webScope : MergeScope := ⟨Eq, webRecording, .seccompProfile, (· = "web")⟩

/-- A partial profile of the recording for the container "web". -/
def webPartial (names : List String) : Object where
  labels :=
    { recording := some "rec", recordingNamespace := some "ns", container := some "web",
      partialProfile := some "true" }
  finalizers := []
  syscallCoverage := none
  spec := seccompAllowing [.x86_64] names

/-- The profiles of two pods are recorded, merged in one run and deleted. -/
def webMerge : List (Act Key Object RangeOrder) :=
  [.other (.call (.create (.profile .seccompProfile "rec-web-pod") (webPartial ["read"]))),
    .other (.call (.create (.profile .seccompProfile "rec-web-next") (webPartial ["write"]))), .start inOrder,
    .serve 0 (.serve 0), .serve 0 (.serve 0), .serve 0 (.serve 0), .serve 0 (.serve 0), .serve 0 (.serve 0)]

theorem webPartial_apart {name : String} (names : List String) (elsewhere : name ≠ "rec-web") :
    webScope.Apart (.profile .seccompProfile name) (webPartial names) := by
  intro _
  refine ⟨?_, ?_⟩
  · rintro ⟨_, rfl, same⟩
    exact elsewhere (Key.profile.inj same).2
  · intro container labelled _
    exact (Option.some.inj labelled).symm

/-- The profiles of two pods are merged and deleted, and what the first one permits is in the merged profile. -/
theorem webMerge_merged : ∃ world,
    World.run (mergeTypedProfiles allowingMerger webRecording .seccompProfile) ⟨Server.empty 10, []⟩ webMerge =
        some world ∧
      ¬ Live (.profile .seccompProfile "rec-web-pod") 1 world.server ∧
      webScope.Merged "web" (webPartial ["read"]).spec world.server := by
  have permitted : ∀ act ∈ webMerge, ∀ world : World Key Object RangeOrder (Except MergeRunError Bool),
      webScope.rules.Permits world act := by
    simp [webMerge, Rules.Permits, MergeScope.rules, MergeScope.OthersRecord, webPartial_apart]
  have gone : ∀ {world : World Key Object RangeOrder (Except MergeRunError Bool)} {stored : Stored Object},
      world.server.Holds (.profile .seccompProfile "rec-web-pod") stored → stored.deleting = true →
      ¬ Live (.profile .seccompProfile "rec-web-pod") 1 world.server := by
    rintro world stored held deleting ⟨current, heldCurrent, _, alive⟩
    rw [held.unique heldCurrent, alive] at deleting
    cases deleting
  refine ⟨_, rfl, gone rfl rfl, ?_⟩
  have reach : World.Reach (mergeTypedProfiles allowingMerger webRecording .seccompProfile) webScope.rules
      ⟨Server.empty 10, []⟩ _ := .of_run permitted rfl
  have permissive : allowingMerger.Permissive webScope.covers := allowingMerger_permissive
  have kept := (merging_keeps_recorded_data permissive rfl rfl (by decide)
    (fun _ _ held => by cases held) (fun _ _ _ held => by cases held) reach).1
    (.profile .seccompProfile "rec-web-pod")
    { uid := 1, version := 1, created := 10, deleting := false, body := webPartial ["read"] } "web"
    ⟨_, List.mem_cons_of_mem _ (List.mem_cons_of_mem _ List.mem_cons_self), rfl⟩ ⟨rfl, rfl, by decide⟩ rfl
  exact kept.resolve_left (gone rfl rfl)

/-- The merged profile is older than the recording, so each run replaces it, also by what the run before did not
have. -/
theorem replaced_profile_loses_data : ∃ early late stored,
    World.run (mergeTypedProfiles allowingMerger webRecording .seccompProfile) ⟨Server.empty 5, []⟩
      [.other (.call (.create (.profile .seccompProfile "rec-web")
        (newProfileObject webRecording (seccompAllowing [.x86_64] ["open"])))), .other (.wait 5),
        .other (.call (.create (.profile .seccompProfile "rec-web-pod") (webPartial ["read"])))] = some early ∧
    World.run (mergeTypedProfiles allowingMerger webRecording .seccompProfile) early
      [.start inOrder, .serve 0 (.serve 0), .serve 0 (.serve 0), .serve 0 (.serve 0), .serve 0 (.serve 0),
        .other (.reap (.profile .seccompProfile "rec-web-pod")),
        .other (.call (.create (.profile .seccompProfile "rec-web-next") (webPartial ["write"]))),
        .start inOrder, .serve 1 (.serve 0), .serve 1 (.serve 0), .serve 1 (.serve 0), .serve 1 (.serve 0)] =
        some late ∧
    early.server.Holds (.profile .seccompProfile "rec-web-pod") stored ∧
    webScope.PartialOf "web" (.profile .seccompProfile "rec-web-pod") stored.body ∧
    stored.deleting = false ∧ ¬ Live (.profile .seccompProfile "rec-web-pod") stored.uid late.server ∧
    ¬ webScope.Merged "web" stored.body.spec late.server := by
  refine ⟨_, _, _, rfl, rfl, rfl, ⟨rfl, rfl, by decide⟩, rfl, ?_, ?_⟩
  · rintro ⟨current, held, _⟩
    cases held
  · rintro ⟨target, held, _, within⟩
    cases held
    have recorded : (webPartial ["read"]).spec.Permits Eq (.call ⟨"read", fun _ => 0⟩ .allow) :=
      Nat.le_refl 7
    obtain ⟨_, member, _⟩ := within (.call ⟨"read", fun _ => 0⟩ .allow) recorded
    cases member

end SecurityProfiles
