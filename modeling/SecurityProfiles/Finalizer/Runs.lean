import SecurityProfiles.Finalizer.Guarded
import SecurityProfiles.Writers.NoLostUpdate

namespace SecurityProfiles

open VersionedStore List

/-- A merger run, or the removal of a profile from a node. -/
inductive FinalizerJob where
  | merge (range : ProfileRecordingKind → RangeOrder)
  | remove (pol : NodeProfile) (finalizers : List String)

def FinalizerJob.code (merger : Merger) (namespaceName name : String) : FinalizerJob → Prog Key Object Unit
  | .merge range => reconcile merger namespaceName name range >>= fun _ => .ret ()
  | .remove pol finalizers => SecurityProfiles.remove pol finalizers >>= fun _ => .ret ()

/-- Whenever the listing of a node shows no other partial profile of the kind of its own, there is no live one of
another kind. -/
def NoOtherKind (namespaceName name : String) (pol : NodeProfile) (server : Server Key Object) :
    (request : Call Key Object) → Except ApiError request.Answer → Prop
  | .list _, .ok listed => listed.any (isOtherPartial pol) = false →
      ∀ kind profileName stored, server.Holds (.profile kind profileName) stored →
        LivePartial namespaceName name (.profile kind profileName) stored → kind = pol.kind
  | _, _ => True

/-- Others create no partial profiles and leave the finalizer alone. An object goes once it is without
finalizers. -/
def OthersLeave (server : Server Key Object) : Server.Disturbance Key Object → Prop
  | .call (.create _ object) => object.labels.partialProfile ≠ some "true"
  | .call (.update key _ object) => ∀ current, server.Holds key current → object.labels = current.body.labels ∧
      (recordingHasUnmergedProfiles ∈ current.body.finalizers → recordingHasUnmergedProfiles ∈ object.finalizers)
  | .reap key => ∀ current, server.Holds key current → current.body.finalizers = []
  | _ => True

/-- A node removes a profile of the recording that it saw being deleted. -/
def finalizerRules (namespaceName name : String) : Rules Key Object FinalizerJob where
  starts server
    | .merge _ => True
    | .remove pol _ => pol.labels.recording = some name ∧ pol.labels.recordingNamespace = some namespaceName ∧
        ∃ stored, server.Seen pol.key stored ∧ stored.deleting = true
  replies
    | .merge _ => fun _ _ _ => True
    | .remove pol _ => NoOtherKind namespaceName name pol
  others := OthersLeave

section runs

variable {namespaceName name : String} {server : Server Key Object} {merger : Merger} {pol : NodeProfile}

/-- A stale listing is enough: profiles do not come to life again, so one without live others shows that none is
live. -/
theorem noneLive_of_listing {view : Objects Key Object} (lasting : Lasting namespaceName name server)
    (member : view ∈ server.views) {gone : Stored Object} (seen : server.Seen pol.key gone)
    (deleting : gone.deleting = true)
    (noOthers : (Server.listing view (selectsRecorded pol.kind name namespaceName)).any (isOtherPartial pol) =
      false)
    (noOtherKind : ∀ kind profileName stored, server.Holds (.profile kind profileName) stored →
      LivePartial namespaceName name (.profile kind profileName) stored → kind = pol.kind) :
    NoneLive namespaceName name server := by
  intro key stored held live
  obtain ⟨kind, profileName, named, rfl⟩ := live.profile
  have ownKind := noOtherKind kind profileName stored held live
  subst ownKind
  by_cases own : profileName = pol.name
  · -- the profile itself was being deleted, and stays so
    obtain ⟨goneView, goneMember, found⟩ := seen
    obtain ⟨earlier, foundEarlier, liveEarlier⟩ := lasting goneView goneMember _ _ held live
    rw [own] at foundEarlier
    have same : gone = earlier := Option.some.inj (found.symm.trans foundEarlier)
    rw [same, liveEarlier.live] at deleting
    cases deleting
  · obtain ⟨earlier, found, liveEarlier⟩ := lasting view member _ _ held live
    have listed : (Key.profile pol.kind profileName, earlier) ∈
        Server.listing view (selectsRecorded pol.kind name namespaceName) := by
      refine Server.mem_listing.mpr ⟨found, ?_⟩
      simp [selectsRecorded, liveEarlier.recording, liveEarlier.recordingNamespace]
    rw [any_eq_false] at noOthers
    exact noOthers _ listed
      (by simp [isOtherPartial, liveEarlier.live, liveEarlier.partialProfile, Key.name, named, own])

theorem guarded_handleRecordingFinalizer (recording : pol.labels.recording = some name)
    (recordingNamespace : pol.labels.recordingNamespace = some namespaceName) {gone : Stored Object}
    (seen : server.Seen pol.key gone) (deleting : gone.deleting = true) :
    (guardContract namespaceName name).Sound (NoOtherKind namespaceName name pol) (fun _ _ => True)
      (handleRecordingFinalizer pol) server := by
  have sameName : pol.labels.recording.getD "" = name := by rw [recording, Option.getD_some]
  have sameNamespace : pol.labels.recordingNamespace.getD "" = namespaceName := by
    rw [recordingNamespace, Option.getD_some]
  subst sameName sameNamespace
  unfold handleRecordingFinalizer
  dsimp only
  split
  · exact guarded_ret _
  apply Contract.sound_list
  · intro later error _ _
    exact guarded_ret _
  intro later view member shrinks lasting noOtherKind
  dsimp only
  split
  · exact guarded_ret _
  next noOthers =>
  have noOthers' := Bool.eq_false_iff.mpr noOthers
  have none : NoneLive _ _ later :=
    noneLive_of_listing lasting member (shrinks.seen seen) deleting noOthers' (noOtherKind noOthers')
  exact guarded_retry (fun _ none lasting => guarded_release_ignoring none lasting) 4 none lasting

theorem guarded_remove (finalizers : List String) (recording : pol.labels.recording = some name)
    (recordingNamespace : pol.labels.recordingNamespace = some namespaceName) {gone : Stored Object}
    (seen : server.Seen pol.key gone) (deleting : gone.deleting = true)
    (lasting : Lasting namespaceName name server) :
    (guardContract namespaceName name).Sound (NoOtherKind namespaceName name pol) (fun _ _ => True)
      (SecurityProfiles.remove pol finalizers) server := by
  have handled : (guardContract namespaceName name).Sound (NoOtherKind namespaceName name pol) (fun _ _ => True)
      (if pol.isPartial then handleRecordingFinalizer pol else .ret (.ok ())) server := by
    split
    · exact guarded_handleRecordingFinalizer recording recordingNamespace seen deleting
    · exact guarded_ret _
  refine Contract.Sound.bind (handled.imp ?_) lasting
  intro later result lastingLater _
  rcases result with error | _
  · exact guarded_ret _
  · refine Contract.sound_retryOnError (fun _ _ _ _ _ _ => trivial) (fun final _ => ?_) 4 later lastingLater
    exact guarded_removeFinalizers fun atRecording => by cases atRecording

theorem FinalizerJob.guarded (job : FinalizerJob) (lasting : Lasting namespaceName name server)
    (starts : (finalizerRules namespaceName name).starts server job) :
    (guardContract namespaceName name).Sound ((finalizerRules namespaceName name).replies job) (fun _ _ => True)
      (job.code merger namespaceName name) server := by
  cases job with
  | merge range =>
    refine Contract.Sound.bind ((guarded_reconcile range).imp ?_) lasting
    intro _ _ _ _
    exact guarded_ret _
  | remove pol finalizers =>
    obtain ⟨recording, recordingNamespace, gone, seen, deleting⟩ := starts
    refine Contract.Sound.bind
      ((guarded_remove finalizers recording recordingNamespace seen deleting lasting).imp ?_) lasting
    intro _ _ _ _
    exact guarded_ret _

/-- What others do takes no finalizer off and brings no deleted profile back to life. -/
theorem OthersLeave.guards {disturbance : Server.Disturbance Key Object}
    (lasting : Lasting namespaceName name server) (others : OthersLeave server disturbance) :
    Guards namespaceName name server (server.disturb disturbance) := by
  have idle : Guards namespaceName name server server := ⟨Shrinks.refl server, lasting, Or.inl⟩
  cases disturbance with
  | wait ticks => exact ⟨⟨id, fun held live => ⟨_, held, live⟩⟩, lasting, Or.inl⟩
  | reap key =>
    rcases server.reap_cases key with same | ⟨current, held, deleting, same⟩
    · simpa only [Server.disturb, same] using idle
    simp only [Server.disturb, same]
    have shrinks : Shrinks namespaceName name server (server.drop key) :=
      ⟨Server.seen_drop.mpr, fun held live => ⟨_, (Server.holds_drop.mp held).2, live⟩⟩
    refine ⟨shrinks, lasting.next shrinks fun view member => mem_cons.mp member, ?_⟩
    rintro ⟨recording, heldRecording, has⟩
    refine Or.inl ⟨recording, Server.holds_drop.mpr ⟨?_, heldRecording⟩, has⟩
    intro atKey
    subst atKey
    rw [others recording heldRecording] at has
    cases has
  | call request =>
    simp only [Server.disturb]
    rcases server.after_cases request with same | effect
    · simpa only [same] using idle
    generalize server.after request = changed at effect
    cases request with
    | get key => cases effect; exact idle
    | list selects => cases effect; exact idle
    | create key object => exact lasting.create others effect
    | update key version object =>
      obtain ⟨current, known, held, _, rfl⟩ := Server.update_ok effect
      obtain ⟨labels, finalizer⟩ := others current held
      exact lasting.update held known labels fun _ has => Or.inl (finalizer has)
    | delete key uid => exact lasting.delete effect

end runs

/-- In every run, no step takes the finalizer off the recording while one of its partial profiles is live, of
whatever kind. The steps are those of the mergers and of the nodes, and what others do to the objects within the
rules. -/
theorem finalizer_protects_unmerged {merger : Merger} {namespaceName name : String}
    {first world next : World Key Object FinalizerJob Unit} (idle : first.clients = [])
    (fresh : first.server.past = [])
    (reach : World.Reach (FinalizerJob.code merger namespaceName name)
      (finalizerRules namespaceName name) first world)
    {act : Act Key Object FinalizerJob} (permits : (finalizerRules namespaceName name).Permits world act)
    (stepped : world.step (FinalizerJob.code merger namespaceName name) act = some next)
    (has : HasFinalizer namespaceName name world.server) :
    HasFinalizer namespaceName name next.server ∨ NoneLive namespaceName name world.server := by
  have start : Lasting namespaceName name first.server := by
    intro view member key current held live
    rw [Server.views, fresh, mem_singleton] at member
    subst member
    exact ⟨current, held, live⟩
  have kept : (guardContract namespaceName name).Kept (finalizerRules namespaceName name) (fun _ _ _ => True)
      first world :=
    Contract.kept_of_reach start idle (fun _ job lasting starts => job.guarded lasting starts)
      (fun _ _ lasting others => ⟨(others.guards lasting).shrinks, (others.guards lasting).lasting⟩) reach
  have lasting : Lasting namespaceName name world.server := kept.inv
  cases act with
  | start job =>
    cases Option.some.inj stepped
    exact Or.inl has
  | other disturbance =>
    cases Option.some.inj stepped
    have leaves : OthersLeave world.server disturbance := permits
    exact (leaves.guards lasting).finalizer has
  | serve client treatment =>
    simp only [World.step] at stepped
    split at stepped
    · next job request rest pending =>
        obtain ⟨⟨reply, server⟩, answered, same⟩ := Option.map_eq_some_iff.mp stepped
        cases same
        exact (kept.guar pending answered (permits job request rest reply server pending answered)
          lasting).finalizer has
    · cases stepped

/-- A partial profile of the recording "rec" in the namespace "ns". -/
def recordedProfile (container : String) (spec : Spec) : Object where
  labels :=
    { recording := some "rec", recordingNamespace := some "ns", container := some container,
      partialProfile := some "true" }
  finalizers := []
  syscallCoverage := none
  spec := spec

def recordingObject : Object where
  labels := { recording := none, recordingNamespace := none, container := none, partialProfile := none }
  finalizers := [recordingHasUnmergedProfiles]
  syscallCoverage := none
  spec := .recording

def webPol : NodeProfile where
  kind := .seccompProfile
  name := "rec-web-pod"
  labels := (recordedProfile "web" .recording).labels

/-- The recording and its seccomp profile, both being deleted. -/
def webDeleted : Server Key Object :=
  ((((Server.empty 10).after (.create (.recording "ns" "rec") recordingObject)).after
    (.create webPol.key (recordedProfile "web" (seccompAllowing [.x86_64] ["read"])))).after
    (.delete (.recording "ns" "rec") 1)).after (.delete webPol.key 2)

/-- The node of the only profile takes the finalizer off the recording. -/
theorem webPol_releases : ∃ world next,
    World.run (FinalizerJob.code plainMerger "ns" "rec") ⟨webDeleted.forget, []⟩
      [.start (.remove webPol []), .serve 0 (.serve 0), .serve 0 (.serve 0)] = some world ∧
    world.step (FinalizerJob.code plainMerger "ns" "rec") (.serve 0 (.serve 0)) = some next ∧
    HasFinalizer "ns" "rec" world.server ∧ ¬ HasFinalizer "ns" "rec" next.server ∧
    NoneLive "ns" "rec" world.server := by
  have onlyWeb : ∀ kind profileName stored, webDeleted.forget.Holds (.profile kind profileName) stored →
      kind = webPol.kind := by
    intro kind profileName stored held
    have member := AList.mem_lookup_iff.mp held
    cases member with
    | head => rfl
    | tail _ member =>
      cases member with
      | tail _ member => cases member
  have permitted : (finalizerRules "ns" "rec").PermitsRun (FinalizerJob.code plainMerger "ns" "rec")
      ⟨webDeleted.forget, []⟩ [.start (.remove webPol []), .serve 0 (.serve 0), .serve 0 (.serve 0)] := by
    refine ⟨⟨rfl, rfl, _, ⟨_, mem_cons_self, rfl⟩, rfl⟩, fun next stepped => ?_⟩
    cases stepped
    refine ⟨?_, fun next stepped => ?_⟩
    · intro job request rest reply server pending answered
      cases pending
      cases answered
      exact fun _ kind profileName stored held _ => onlyWeb kind profileName stored held
    · cases stepped
      refine ⟨?_, fun _ _ => trivial⟩
      intro job request rest reply server pending answered
      cases pending
      trivial
  have reach : World.Reach (FinalizerJob.code plainMerger "ns" "rec") (finalizerRules "ns" "rec")
      ⟨webDeleted.forget, []⟩ _ := .of_permitted .start permitted rfl
  have gone : ∀ {server : Server Key Object} {stored : Stored Object},
      server.Holds (.recording "ns" "rec") stored → stored.body.finalizers = [] →
      ¬ HasFinalizer "ns" "rec" server := by
    rintro server stored held empty ⟨current, heldCurrent, has⟩
    rw [← held.unique heldCurrent, empty] at has
    cases has
  refine ⟨_, _, rfl, rfl, ⟨_, rfl, mem_cons_self⟩, gone rfl rfl, ?_⟩
  refine (@finalizer_protects_unmerged _ _ _ _ _ _ rfl rfl reach (.serve 0 (.serve 0)) ?_ rfl
    ⟨_, rfl, mem_cons_self⟩).resolve_left (gone rfl rfl)
  intro job request rest reply server pending answered
  cases pending
  trivial

/-- The recording, its seccomp profile being deleted, and its SELinux profile that is not merged yet. -/
def mixedKinds : Server Key Object :=
  webDeleted.after (.create (.profile .selinuxProfile "rec-db-pod")
    (recordedProfile "db" (.selinux { state := .unset, allow := .empty })))

/-- The node of the seccomp profile takes the finalizer off the recording while the SELinux profile is live. -/
theorem other_kind_unprotected : ∃ world next stored,
    World.run (FinalizerJob.code plainMerger "ns" "rec") ⟨mixedKinds, []⟩
      [.start (.remove webPol []), .serve 0 (.serve 0), .serve 0 (.serve 0)] = some world ∧
    world.step (FinalizerJob.code plainMerger "ns" "rec") (.serve 0 (.serve 0)) = some next ∧
    HasFinalizer "ns" "rec" world.server ∧ ¬ HasFinalizer "ns" "rec" next.server ∧
    world.server.Holds (.profile .selinuxProfile "rec-db-pod") stored ∧
    LivePartial "ns" "rec" (.profile .selinuxProfile "rec-db-pod") stored := by
  refine ⟨_, _, _, rfl, rfl, ⟨_, rfl, mem_cons_self⟩, ?_, rfl, ⟨⟨_, _, by decide, rfl⟩, rfl, rfl, rfl, rfl⟩⟩
  rintro ⟨current, held, has⟩
  cases held
  cases has

end SecurityProfiles
