import SecurityProfiles.Finalizer.Protects

namespace SecurityProfiles

open VersionedStore

section guarded

variable {namespaceName name : String} {replies : Contract.Replies Key Object} {server : Server Key Object}
  {merger : Merger} {recording : Recording} {kind : ProfileRecordingKind} {α : Type}

/-- Nothing is asked of the result. -/
theorem guarded_ret (result : α) :
    (guardContract namespaceName name).Sound replies (fun _ _ => True) (.ret result) server :=
  fun _ _ _ => trivial

theorem guards_writes (partialSpec : Spec) (coverage : Option SyscallCoverage) (profileName : String) :
    (guardContract namespaceName name).Writes (.profile kind profileName)
      (updateMergedProfile merger recording kind partialSpec coverage) (fun _ _ => True) where
  stable _ _ _ _ _ _ := trivial
  api _ := trivial
  refused _ _ _ := trivial
  unchanged _ _ _ := trivial
  create _ computed created := by
    have labels := (updateMergedProfile_ok computed).2.2
    exact ⟨fun lasting => lasting.create (by simp [labels, newProfileObject]) created, trivial⟩
  update _ held computed changed := by
    obtain ⟨known, rfl⟩ := changed
    have labels := (updateMergedProfile_ok computed).2.2
    exact ⟨fun lasting => lasting.update held known labels (by simp), trivial⟩

theorem guarded_mergeContainers (listed : List Listed) (containers skipped : List String)
    (lasting : Lasting namespaceName name server) :
    (guardContract namespaceName name).Sound replies (fun _ _ => True)
      (mergeContainers merger recording kind listed containers skipped) server := by
  induction containers generalizing skipped server with
  | nil => exact guarded_ret _
  | cons container rest ih =>
    unfold mergeContainers
    split
    · exact guarded_ret _
    dsimp only
    split
    · exact guarded_ret _
    next first others _ _ merged _ =>
    have writes : (guardContract namespaceName name).Writes
        (.profile kind (mergedProfileName recording.name first.1.name first.2.body.labels))
        (updateMergedProfile merger recording kind merged <|
          seccompCoverageAnnotation ((first :: others).map (·.2.body.spec))) (fun _ _ => True) :=
      guards_writes merged _ _
    refine Contract.Sound.bind
      ((Contract.sound_retryOnError writes.stable (fun later _ => writes.sound later) 9 server lasting).imp ?_)
        lasting
    intro later result lastingLater _
    rcases result with ((_ | _ | _ | _) | _) | _
    · exact ih _ lastingLater
    · exact guarded_ret _
    · exact guarded_ret _
    · exact guarded_ret _
    · exact guarded_ret _
    · exact ih _ lastingLater

theorem guarded_deletePartialProfiles (profiles : List Listed) (errors : List ApiError) :
    (guardContract namespaceName name).Sound replies (fun _ _ => True)
      (deletePartialProfiles profiles errors) server := by
  induction profiles generalizing errors server with
  | nil => exact guarded_ret _
  | cons profile rest ih =>
    apply Contract.sound_call
    · intro later changed _ _ deleted lasting
      exact lasting.delete deleted
    · intro later error _ _
      cases error <;> exact ih _
    · intro later changed _ _ _ _
      exact ih _

theorem guarded_mergeTypedProfiles (range : RangeOrder) :
    (guardContract namespaceName name).Sound replies (fun _ _ => True)
      (mergeTypedProfiles merger recording kind range) server := by
  apply Contract.sound_list
  · intro later error _ _
    exact guarded_ret _
  intro later view _ _ lasting _
  show (guardContract namespaceName name).Sound replies (fun _ _ => True)
    (mergeListed merger recording kind range _) later
  unfold mergeListed
  split
  · exact guarded_ret _
  split
  · exact guarded_ret _
  refine Contract.Sound.bind ((guarded_mergeContainers _ _ _ lasting).imp ?_) lasting
  intro final result lastingFinal _
  cases result with
  | error error => exact guarded_ret _
  | ok skipped =>
    refine Contract.Sound.bind ((guarded_deletePartialProfiles _ _).imp ?_) lastingFinal
    intro _ errors _ _
    cases errors <;> exact guarded_ret _

variable (range : ProfileRecordingKind → RangeOrder)

theorem guarded_mergeProfilesOf (kinds : List ProfileRecordingKind) (lasting : Lasting namespaceName name server) :
    (guardContract namespaceName name).Sound replies (fun _ _ => True)
      (mergeProfilesOf merger recording range kinds) server := by
  induction kinds generalizing server with
  | nil => exact guarded_ret _
  | cons kind rest ih =>
    refine Contract.Sound.bind ((guarded_mergeTypedProfiles (range kind)).imp ?_) lasting
    intro later result lastingLater _
    cases result with
    | error error => exact guarded_ret _
    | ok merged => exact ih lastingLater

/-- Finalizers may go, except the one of the recording while a partial profile is live. -/
theorem guarded_removeFinalizers {key : Key} {removed : List String}
    (released : key = .recording namespaceName name → NoneLive namespaceName name server) :
    (guardContract namespaceName name).Sound replies (fun _ _ => True) (removeFinalizers key removed) server := by
  apply Contract.sound_get
  · intro later error _ _
    exact guarded_ret _
  intro later stored shrinks _ seen
  dsimp only
  split
  · exact guarded_ret _
  apply Contract.sound_call
  · intro final changed shrinksFinal _ updated lasting
    obtain ⟨current, known, held, same, rfl⟩ := Server.update_ok updated
    obtain rfl := (shrinksFinal.seen seen).eq_of_version held same
    refine lasting.update held known rfl fun atRecording _ => Or.inr ?_
    exact (released atRecording).later (shrinks.trans shrinksFinal)
  · intro final error _ _
    exact guarded_ret _
  · intro final changed _ _ _ _
    exact guarded_ret _

def NoneLiveOf (recording : Recording) (kinds : List ProfileRecordingKind) (server : Server Key Object) : Prop :=
  ∀ kind ∈ kinds, ∀ profileName stored, server.Holds (.profile kind profileName) stored →
    ¬ LivePartial recording.namespaceName recording.name (.profile kind profileName) stored

theorem NoneLiveOf.later {kinds : List ProfileRecordingKind} {later : Server Key Object}
    (none : NoneLiveOf recording kinds server)
    (shrinks : Shrinks recording.namespaceName recording.name server later) : NoneLiveOf recording kinds later := by
  intro kind member profileName stored held live
  obtain ⟨earlier, heldEarlier, liveEarlier⟩ := shrinks.live held live
  exact none kind member profileName earlier heldEarlier liveEarlier

theorem NoneLiveOf.noneLive (none : NoneLiveOf recording mergeKinds server) :
    NoneLive recording.namespaceName recording.name server := by
  intro key stored held live
  obtain ⟨kind, profileName, _, rfl⟩ := live.profile
  have listed : kind ∈ mergeKinds := by cases kind <;> decide
  exact none kind listed profileName stored held live

theorem LivePartial.selectsPartial {profileName : String} {stored : Stored Object}
    (live : LivePartial recording.namespaceName recording.name (.profile kind profileName) stored) :
    selectsPartial recording kind (.profile kind profileName) stored.body = true := by
  simp [SecurityProfiles.selectsPartial, Labels.partialOf, live.recording, live.recordingNamespace,
    live.partialProfile]

/-- An old listing without live profiles is right. -/
theorem guarded_hasPartialProfiles :
    (guardContract recording.namespaceName recording.name).Sound replies
      (fun later result => result = .ok false → NoneLiveOf recording [kind] later)
      (hasPartialProfiles recording kind) server := by
  apply Contract.sound_list
  · intro later error _ _ final _ _ same
    cases same
  intro later view member _ lasting _ final shrinks _ same
  have none : NoneLiveOf recording [kind] later := by
    intro kind' isKind profileName stored held live
    cases List.mem_singleton.mp isKind
    obtain ⟨earlier, found, liveEarlier⟩ := lasting view member _ _ held live
    have listed : (Key.profile kind profileName, earlier) ∈ Server.listing view (selectsPartial recording kind) :=
      Server.mem_listing.mpr ⟨found, liveEarlier.selectsPartial⟩
    have noneListed := Except.ok.inj same
    rw [List.any_eq_false] at noneListed
    exact noneListed _ listed (by simp [liveEarlier.live])
  exact none.later shrinks

theorem guarded_hasPartialProfilesOf (kinds : List ProfileRecordingKind)
    (lasting : Lasting recording.namespaceName recording.name server) :
    (guardContract recording.namespaceName recording.name).Sound replies
      (fun later result => result = .ok false → NoneLiveOf recording kinds later)
      (hasPartialProfilesOf recording kinds) server := by
  induction kinds generalizing server with
  | nil => exact fun _ _ _ _ _ member => by cases member
  | cons kind rest ih =>
    refine Contract.Sound.bind (guarded_hasPartialProfiles.imp ?_) lasting
    intro later result lastingLater ended
    rcases result with error | _ | _
    · intro _ _ _ same
      cases same
    · refine ((ih lastingLater).relied (Shrinks.refl later)).imp ?_
      intro final result _ ⟨shrinks, endedRest⟩ same kind' member
      rcases List.mem_cons.mp member with rfl | inRest
      · exact (ended rfl).later shrinks kind' List.mem_cons_self
      · exact endedRest same kind' inRest
    · intro _ _ _ same
      cases same

theorem guarded_releaseFinalizer (none : NoneLive namespaceName name server) :
    (guardContract namespaceName name).Sound replies (fun _ _ => True)
      (releaseFinalizer namespaceName name) server :=
  guarded_removeFinalizers fun _ => none

theorem guarded_release_ignoring (none : NoneLive namespaceName name server)
    (lasting : Lasting namespaceName name server) :
    (guardContract namespaceName name).Sound replies (fun _ _ => True)
      (releaseFinalizer namespaceName name >>= fun result => .ret (ignoreNotFound result)) server := by
  refine Contract.Sound.bind ((guarded_releaseFinalizer none).imp ?_) lasting
  intro _ _ _ _
  exact guarded_ret _

/-- Retrying what is allowed as long as no profile is live. -/
theorem guarded_retry {ε : Type} {retriable : ε → Bool} {attempt : Prog Key Object (Except ε α)}
    (attempts : ∀ later, NoneLive namespaceName name later → Lasting namespaceName name later →
      (guardContract namespaceName name).Sound replies (fun _ _ => True) attempt later)
    (further : Nat) (none : NoneLive namespaceName name server) (lasting : Lasting namespaceName name server) :
    (guardContract namespaceName name).Sound replies (fun _ _ => True) (retryOnError retriable attempt further)
      server := by
  induction further generalizing server with
  | zero => exact attempts server none lasting
  | succ further ih =>
    refine Contract.Sound.bind (((attempts server none lasting).relied (Shrinks.refl server)).imp ?_) lasting
    intro later result lastingLater ⟨shrinks, _⟩
    cases result with
    | ok result => exact guarded_ret _
    | error error =>
      by_cases again : retriable error
      · simpa only [if_pos again] using ih (none.later shrinks) lastingLater
      · simpa only [if_neg again] using guarded_ret _

theorem guarded_releaseRecording (recording : Recording) (finalizers : List String)
    (lasting : Lasting recording.namespaceName recording.name server) :
    (guardContract recording.namespaceName recording.name).Sound replies (fun _ _ => True)
      (releaseRecording recording finalizers) server := by
  unfold releaseRecording
  split
  · exact guarded_ret _
  refine Contract.Sound.bind ((guarded_hasPartialProfilesOf mergeKinds lasting).imp ?_) lasting
  intro later result lastingLater ended
  rcases result with error | _ | _
  · exact guarded_ret _
  · refine Contract.Sound.bind ((guarded_retry (fun _ none _ => guarded_releaseFinalizer none) 4
      (ended rfl).noneLive lastingLater).imp ?_) lastingLater
    intro _ _ _ _
    exact guarded_ret _
  · exact guarded_ret _

theorem guarded_reconcile :
    (guardContract namespaceName name).Sound replies (fun _ _ => True) (reconcile merger namespaceName name range)
      server := by
  apply Contract.sound_get
  · intro later error _ _
    cases error <;> exact guarded_ret _
  intro later stored _ lasting _
  dsimp only
  split
  · refine Contract.Sound.bind ((guarded_mergeProfilesOf range mergeKinds lasting).imp ?_) lasting
    intro final result lastingFinal _
    rcases result with error | _
    · exact guarded_ret _
    · refine Contract.Sound.bind ((guarded_releaseRecording
        { name := name, namespaceName := namespaceName, created := stored.created } stored.body.finalizers
        lastingFinal).imp ?_) lastingFinal
      intro _ _ _ _
      exact guarded_ret _
  · exact guarded_ret _

end guarded

end SecurityProfiles
