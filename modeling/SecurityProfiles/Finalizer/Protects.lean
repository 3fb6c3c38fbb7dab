import SecurityProfiles.Finalizer.Release

namespace SecurityProfiles

open VersionedStore

section protects

variable (namespaceName name : String)

/-- A partial profile of the recording that is not being deleted. -/
structure LivePartial (key : Key) (stored : Stored Object) : Prop where
  profile : ∃ kind profileName, profileName ≠ "" ∧ key = .profile kind profileName
  recording : stored.body.labels.recording = some name
  recordingNamespace : stored.body.labels.recordingNamespace = some namespaceName
  partialProfile : stored.body.labels.partialProfile = some "true"
  live : stored.deleting = false

def NoneLive (server : Server Key Object) : Prop :=
  ∀ key stored, server.Holds key stored → ¬ LivePartial namespaceName name key stored

def HasFinalizer (server : Server Key Object) : Prop :=
  ∃ stored, server.Holds (.recording namespaceName name) stored ∧
    recordingHasUnmergedProfiles ∈ stored.body.finalizers

/-- What is live was so in every state of the store. -/
def Lasting (server : Server Key Object) : Prop :=
  ∀ view ∈ server.views, ∀ key current, server.Holds key current → LivePartial namespaceName name key current →
    ∃ earlier, view.lookup key = some earlier ∧ LivePartial namespaceName name key earlier

/-- No profile comes to life. -/
structure Shrinks (first second : Server Key Object) : Prop where
  seen : ∀ {key stored}, first.Seen key stored → second.Seen key stored
  live : ∀ {key current}, second.Holds key current → LivePartial namespaceName name key current →
    ∃ earlier, first.Holds key earlier ∧ LivePartial namespaceName name key earlier

variable {namespaceName name}

theorem Shrinks.refl (server : Server Key Object) : Shrinks namespaceName name server server where
  seen := id
  live {_ current} held live := ⟨current, held, live⟩

variable {first second server changed : Server Key Object} {key : Key} {stored : Stored Object} {body : Object}

theorem Shrinks.trans {third : Server Key Object} (left : Shrinks namespaceName name first second)
    (right : Shrinks namespaceName name second third) : Shrinks namespaceName name first third where
  seen seenFirst := right.seen (left.seen seenFirst)
  live held live := by
    obtain ⟨middle, heldMiddle, liveMiddle⟩ := right.live held live
    exact left.live heldMiddle liveMiddle

theorem NoneLive.later (none : NoneLive namespaceName name first)
    (shrinks : Shrinks namespaceName name first second) : NoneLive namespaceName name second := by
  intro key stored held live
  obtain ⟨earlier, heldEarlier, liveEarlier⟩ := shrinks.live held live
  exact none key earlier heldEarlier liveEarlier

theorem LivePartial.of_labels {stored' : Stored Object}
    (live : LivePartial namespaceName name key stored) (labels : stored'.body.labels = stored.body.labels)
    (deleting : stored'.deleting = stored.deleting) : LivePartial namespaceName name key stored' where
  profile := live.profile
  recording := labels ▸ live.recording
  recordingNamespace := labels ▸ live.recordingNamespace
  partialProfile := labels ▸ live.partialProfile
  live := deleting ▸ live.live

theorem Lasting.next {server next : Server Key Object} (lasting : Lasting namespaceName name server)
    (shrinks : Shrinks namespaceName name server next)
    (views : ∀ view ∈ next.views, view = next.objects ∨ view ∈ server.views) : Lasting namespaceName name next := by
  intro view member key current held live
  rcases views view member with rfl | older
  · exact ⟨current, held, live⟩
  · obtain ⟨earlier, heldEarlier, liveEarlier⟩ := shrinks.live held live
    exact lasting view older key earlier heldEarlier liveEarlier

/-- A step of the two components: no profile comes to life, and the finalizer stays unless no profile is live. -/
structure Guards (namespaceName name : String) (first second : Server Key Object) : Prop where
  shrinks : Shrinks namespaceName name first second
  lasting : Lasting namespaceName name second
  finalizer : HasFinalizer namespaceName name first →
    HasFinalizer namespaceName name second ∨ NoneLive namespaceName name first

def guardContract (namespaceName name : String) : Contract Key Object where
  inv := Lasting namespaceName name
  rely := Shrinks namespaceName name
  guar first second := Lasting namespaceName name first → Guards namespaceName name first second
  rely_refl := Shrinks.refl
  rely_trans := Shrinks.trans
  rely_seen shrinks := shrinks.seen
  guar_refl server lasting := ⟨Shrinks.refl server, lasting, Or.inl⟩
  guar_rely lasting guards := ⟨(guards lasting).shrinks, (guards lasting).lasting⟩

section

variable (lasting : Lasting namespaceName name server)
include lasting

/-- A write that leaves alone which profiles are live. -/
theorem Lasting.put (known : stored.uid ≤ server.revision + 1)
    (live : LivePartial namespaceName name key stored → ∃ current, server.Holds key current ∧
      LivePartial namespaceName name key current)
    (finalizer : ∀ current, key = .recording namespaceName name → server.Holds key current →
      recordingHasUnmergedProfiles ∈ current.body.finalizers →
      recordingHasUnmergedProfiles ∈ stored.body.finalizers ∨ NoneLive namespaceName name server) :
    Guards namespaceName name server (server.put key stored known) := by
  have shrinks : Shrinks namespaceName name server (server.put key stored known) := by
    refine ⟨fun seen => Server.seen_put.mpr (Or.inl seen), ?_⟩
    intro key' current held isLive
    rcases Server.holds_put.mp held with ⟨rfl, rfl⟩ | ⟨_, held⟩
    · exact live (isLive.of_labels rfl rfl)
    · exact ⟨current, held, isLive⟩
  refine ⟨shrinks, lasting.next shrinks fun view member => List.mem_cons.mp member, ?_⟩
  intro ⟨recording, held, has⟩
  by_cases same : Key.recording namespaceName name = key
  · subst same
    rcases finalizer recording rfl held has with kept | none
    · exact Or.inl ⟨_, Server.holds_put_self, kept⟩
    · exact Or.inr none
  · exact Or.inl ⟨recording, (Server.holds_put_ne same).mpr held, has⟩

/-- An update that keeps the labels guards the finalizer, if it takes the finalizer off only where no partial
profile is live. -/
theorem Lasting.update {current : Stored Object} (held : server.Holds key current)
    (known : current.uid ≤ server.revision + 1) (labels : body.labels = current.body.labels)
    (finalizer : key = .recording namespaceName name → recordingHasUnmergedProfiles ∈ current.body.finalizers →
      recordingHasUnmergedProfiles ∈ body.finalizers ∨ NoneLive namespaceName name server) :
    Guards namespaceName name server (server.put key { current with body := body } known) := by
  apply lasting.put
  · intro live
    exact ⟨current, held, live.of_labels labels.symm rfl⟩
  · intro latest same heldLatest has
    rw [← held.unique heldLatest] at has
    exact finalizer same has

theorem Lasting.delete
    {uid : Nat} (deleted : server.delete key uid = .ok changed) : Guards namespaceName name server changed := by
  obtain ⟨current, known, held, _, rfl⟩ := Server.delete_ok deleted
  apply lasting.put
  · intro live
    cases live.live
  · intro latest _ heldLatest has
    rw [← held.unique heldLatest] at has
    exact Or.inl has

theorem Lasting.create (notPartial : body.labels.partialProfile ≠ some "true")
    (created : server.create key body = .ok changed) : Guards namespaceName name server changed := by
  obtain ⟨absent, known, rfl⟩ := Server.create_ok created
  apply lasting.put
  · intro live
    exact absurd live.partialProfile notPartial
  · intro latest _ held _
    rw [Server.Holds, absent] at held
    cases held

end

end protects

end SecurityProfiles
