import SecurityProfiles.Writers.NoLostUpdate

namespace SecurityProfiles

open VersionedStore

/-- A call of `createUpdateProfile` or of `storeProfile`. -/
inductive ProfileWrite where
  | createUpdate (recording : Recording) (mergedRecordingName : String) (partialSpec : Spec)
      (kind : ProfileRecordingKind) (coverage : Option SyscallCoverage)
  | store (target : ProfileTarget) (profile : Spec) (kind : ProfileRecordingKind)

namespace ProfileWrite

def code (merger : Merger) : ProfileWrite → Prog Key Object Unit
  | .createUpdate recording mergedRecordingName partialSpec kind coverage => do
      let _ ← createUpdateProfile merger recording mergedRecordingName partialSpec kind coverage
  | .store target profile kind => do
      let _ ← storeProfile merger target profile kind

def IsFor (recordingName recordingNamespace : String) : ProfileWrite → Prop
  | .createUpdate recording _ _ _ _ => recording.name = recordingName ∧ recording.namespaceName = recordingNamespace
  | .store target _ _ => target.recordingName = recordingName ∧ target.namespaceName = recordingNamespace

end ProfileWrite

section

variable (recordingName recordingNamespace : String)

/-- Profiles of others stay as they are. -/
structure SparesForeign (first second : Server Key Object) : Prop where
  seen : ∀ {key stored}, first.Seen key stored → second.Seen key stored
  held : ∀ {key stored}, first.Holds key stored → stored.body.labels.Foreign recordingName recordingNamespace →
    second.Holds key stored

/-- Others may do anything; the writers of the recording spare the profiles of others. -/
def foreignContract : Contract Key Object where
  inv _ := True
  rely first second := ∀ key stored, first.Seen key stored → second.Seen key stored
  guar := SparesForeign recordingName recordingNamespace
  rely_refl _ _ _ := id
  rely_trans left right key stored seen := right key stored (left key stored seen)
  rely_seen relied _ _ := relied _ _
  guar_refl _ := ⟨id, fun held _ => held⟩
  guar_rely _ guaranteed := ⟨fun _ _ => guaranteed.seen, trivial⟩

/-- Others do what they like, and the writers are those of the recording. -/
def foreignRules : Rules Key Object ProfileWrite where
  starts _ write := write.IsFor recordingName recordingNamespace
  replies _ _ _ _ := True
  others _ _ := True

end

variable {recordingName recordingNamespace : String} {merger : Merger} {server : Server Key Object}
  {replies : Contract.Replies Key Object}

/-- A change that checks the owner overwrites nothing of others. -/
theorem writes_own {key : Key} {change : Option (Stored Object) → Except WriteError Object}
    (owned : ∀ {stored object}, change (some stored) = .ok object →
      ¬ stored.body.labels.Foreign recordingName recordingNamespace) :
    (foreignContract recordingName recordingNamespace).Writes key change fun _ _ => True where
  stable _ _ _ _ _ _ := trivial
  api _ := trivial
  refused _ _ _ := trivial
  unchanged _ _ _ := trivial
  create {server changed object} _ _ created := by
    obtain ⟨absent, known, rfl⟩ := Server.create_ok created
    refine ⟨⟨fun seen => Server.seen_put.mpr (Or.inl seen), fun {key' stored} held _ => ?_⟩, trivial⟩
    refine Server.holds_put.mpr (Or.inr ⟨?_, held⟩)
    rintro rfl
    rw [Server.Holds, absent] at held
    cases held
  update {server changed object current} _ held computed written := by
    obtain ⟨known, rfl⟩ := written
    refine ⟨⟨fun seen => Server.seen_put.mpr (Or.inl seen), fun {key' stored} held' foreign => ?_⟩, trivial⟩
    refine Server.holds_put.mpr (Or.inr ⟨?_, held'⟩)
    rintro rfl
    exact owned computed (held.unique held' ▸ foreign)

theorem sound_writeProfile_own {target : ProfileTarget} (desired : Spec) (kind : ProfileRecordingKind)
    (name : target.recordingName = recordingName) (namespaceName : target.namespaceName = recordingNamespace) :
    (foreignContract recordingName recordingNamespace).Sound replies (fun _ _ => True)
      (writeProfile merger target desired kind) server := by
  subst name
  subst namespaceName
  have writes : (foreignContract target.recordingName target.namespaceName).Writes (.profile kind target.name)
      (updateStoredProfile merger target desired) fun _ _ => True :=
    writes_own fun ok => checkRecordingOwner_ok.mp (updateStoredProfile_ok ok).1
  exact Contract.sound_retryOnError writes.stable (fun later _ => writes.sound later) 4 server trivial

theorem sound_ret_own {α : Type} (result : α) : (foreignContract recordingName recordingNamespace).Sound replies
    (fun _ _ => True) (.ret result) server :=
  fun _ _ _ => trivial

theorem sound_storeProfile_own {target : ProfileTarget} (profile : Spec) (kind : ProfileRecordingKind)
    (name : target.recordingName = recordingName) (namespaceName : target.namespaceName = recordingNamespace) :
    (foreignContract recordingName recordingNamespace).Sound replies (fun _ _ => True)
      (storeProfile merger target profile kind) server := by
  refine Contract.Sound.bind ((sound_writeProfile_own _ kind name namespaceName).imp ?_) trivial
  intro later result _ _
  rcases result with ((owner | merge | _ | _) | _) | _
  · exact sound_ret_own _
  · -- The partial profile is checked for its owner like the merged one.
    have partialTarget : target.toPartial.recordingName = recordingName := name
    refine Contract.Sound.bind ((sound_writeProfile_own _ kind partialTarget namespaceName).imp ?_) trivial
    intro last result _ _
    rcases result with ((owner | merge | _ | _) | _) | _ <;> exact sound_ret_own _
  all_goals exact sound_ret_own _

theorem ProfileWrite.sound_code {write : ProfileWrite} (isFor : write.IsFor recordingName recordingNamespace) :
    (foreignContract recordingName recordingNamespace).Sound replies (fun _ _ => True)
      (write.code merger) server := by
  cases write with
  | store target profile kind =>
    refine Contract.Sound.bind ((sound_storeProfile_own profile kind isFor.1 isFor.2).imp ?_) trivial
    exact fun _ _ _ _ => sound_ret_own _
  | createUpdate recording mergedRecordingName partialSpec kind coverage =>
    obtain ⟨rfl, rfl⟩ := isFor
    have writes : (foreignContract recording.name recording.namespaceName).Writes
        (.profile kind mergedRecordingName) (updateMergedProfile merger recording kind partialSpec coverage)
        fun _ _ => True :=
      writes_own fun ok => checkRecordingOwner_ok.mp (updateMergedProfile_ok ok).1
    refine Contract.Sound.bind ((Contract.sound_retryOnError writes.stable
      (fun later _ => writes.sound later) 9 server trivial).imp ?_) trivial
    exact fun _ _ _ _ => sound_ret_own _

/-- Whatever the state of the store and whatever others do: no step of a writer of the recording touches a profile
without recording label, of another recording, or of a recording in another namespace. -/
theorem foreign_profile_unchanged {first world : World Key Object ProfileWrite Unit} (idle : first.clients = [])
    (reach : World.Reach (ProfileWrite.code merger) (foreignRules recordingName recordingNamespace) first world)
    {client : Nat} {write : ProfileWrite} {request : Call Key Object}
    {next : Except ApiError request.Answer → Prog Key Object Unit} {treatment : Server.Treatment}
    {reply : Except ApiError request.Answer} {changed : Server Key Object}
    (pending : world.clients[client]? = some (write, .call request next))
    (answered : world.server.answer request treatment = some (reply, changed)) {key : Key} {stored : Stored Object}
    (held : world.server.Holds key stored) (foreign : stored.body.labels.Foreign recordingName recordingNamespace) :
    changed.Holds key stored := by
  have kept : (foreignContract recordingName recordingNamespace).Kept
      (foreignRules recordingName recordingNamespace) (fun _ _ _ => True) first world :=
    Contract.kept_of_reach trivial idle (fun _ _ _ isFor => ProfileWrite.sound_code isFor)
      (fun _ disturbance _ _ => ⟨fun _ _ seen => seen.disturb disturbance, trivial⟩) reach
  exact (kept.guar pending answered trivial).held held foreign

/-- A profile of somebody who recorded nothing. -/
def handWritten : Object where
  labels := { recording := none, recordingNamespace := none, container := none, partialProfile := none }
  finalizers := []
  syscallCoverage := none
  spec := seccompAllowing [.x86_64] ["read"]

def webWrite : ProfileWrite :=
  .createUpdate { name := "rec", namespaceName := "ns", created := 5 } "rec-web"
    (seccompAllowing [.x86_64] ["write"]) .seccompProfile none

/-- The merger finds no profile, and somebody else creates one before the merger does. -/
def webIntrusion : List (Act Key Object ProfileWrite) :=
  [.start webWrite, .serve 0 (.serve 0), .other (.call (.create (.profile .seccompProfile "rec-web") handWritten))]

theorem webIntrusion_permitted (act : Act Key Object ProfileWrite) (member : act ∈ webIntrusion)
    (world : World Key Object ProfileWrite Unit) : (foreignRules "rec" "ns").Permits world act := by
  simp only [webIntrusion, List.mem_cons, List.not_mem_nil, or_false] at member
  rcases member with rfl | rfl | rfl <;> simp [Rules.Permits, foreignRules, ProfileWrite.IsFor, webWrite]

theorem handWritten_unchanged : ∃ world next stored,
    World.run (ProfileWrite.code plainMerger) ⟨Server.empty 10, []⟩ webIntrusion = some world ∧
      world.step (ProfileWrite.code plainMerger) (.serve 0 (.serve 0)) = some next ∧
      world.server.Holds (.profile .seccompProfile "rec-web") stored ∧ stored.body = handWritten ∧
      next.server.Holds (.profile .seccompProfile "rec-web") stored := by
  refine ⟨_, _, _, rfl, rfl, rfl, rfl, ?_⟩
  have reach : World.Reach (ProfileWrite.code plainMerger) (foreignRules "rec" "ns") ⟨Server.empty 10, []⟩ _ :=
    .of_run webIntrusion_permitted rfl
  exact @foreign_profile_unchanged _ _ _ _ _ rfl reach 0 _ _ _ (.serve 0) _ _ rfl rfl _ _ rfl (Or.inl rfl)

end SecurityProfiles
