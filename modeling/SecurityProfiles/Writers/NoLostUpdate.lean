import SecurityProfiles.Library.Growing
import SecurityProfiles.Writers.StoreProfile

namespace SecurityProfiles

open VersionedStore

/-- A profile is below another one that has all its rules. -/
instance : Preorder Spec where
  le := Spec.Within
  le_refl := Spec.Within.refl
  le_trans _ _ _ := Spec.Within.trans

/-- A writer that merges into a profile: the merger, or the recorder of a node. -/
inductive Writer where
  | merger (recording : Recording) (partialSpec : Spec) (coverage : Option SyscallCoverage)
  | recorder (target : ProfileTarget) (profile : Spec)

namespace Writer

def contribution : Writer → Spec
  | .merger _ partialSpec _ => partialSpec
  | .recorder _ profile => profile

def recordingName : Writer → String
  | .merger recording _ _ => recording.name
  | .recorder target _ => target.recordingName

def recordingNamespace : Writer → String
  | .merger recording _ _ => recording.namespaceName
  | .recorder target _ => target.namespaceName

/-- What a writer runs to merge into the profile with the name. -/
def code (merger : Merger) (kind : ProfileRecordingKind) (name : String) : Writer → Prog Key Object StoreOutcome
  | .merger recording partialSpec coverage => do
      match ← createUpdateProfile merger recording name partialSpec kind coverage with
      | .ok () => return .stored
      | .error fault => return .failed fault
  | .recorder target profile => storeProfile merger target profile kind

/-- The writer merges into the profile with the name, for a recording that is not younger than any such profile. -/
def MergesInto (name : String) (since : Nat) : Writer → Prop
  | .merger recording _ _ => recording.created ≤ since
  | .recorder target _ => target.name = name ∧ target.merge = true ∧
      ∃ profileName cntName replicaSuffix podName podNamespace recording, podName ≠ "" ∧
        resolveProfileTarget profileName cntName replicaSuffix podName podNamespace recording = .ok target

end Writer

/-- The rules of the profile with the name grow. -/
def profileGrowth (kind : ProfileRecordingKind) (name : String) (since : Nat) : Growth Key Object Spec where
  keys key := key = .profile kind name
  content object := object.spec
  since := since
  good stored := since ≤ stored.created

theorem Merges.adds_growth {change : Option (Stored Object) → Except WriteError Object}
    {recordingName recordingNamespace : String} {contribution : Spec} {since : Nat}
    (merges : Merges change recordingName recordingNamespace contribution since) (kind : ProfileRecordingKind)
    (name : String) : (profileGrowth kind name since).Adds change contribution where
  adds ok := merges.adds ok
  keeps ok good := merges.keeps ok good
  goodNew _ later := later
  goodNext _ good := good

/-- How a writer ends: its rules are in the profile, or it left out the profile of another recording, or it stored
its rules apart after merging them failed. -/
def Writer.Ended (kind : ProfileRecordingKind) (name : String) (writer : Writer) (server : Server Key Object) :
    StoreOutcome → Prop
  | .stored => ∃ current, server.Holds (.profile kind name) current ∧
      writer.contribution.Within current.body.spec
  | .dropped => (∃ target profile, writer = .recorder target profile) ∧
      ∃ profile stored, server.Seen (.profile kind profile) stored ∧
        stored.body.labels.Foreign writer.recordingName writer.recordingNamespace
  | .storedPartial => ∃ target profile, writer = .recorder target profile
  | .failed _ => True

section sound

variable {merger : Merger} {kind : ProfileRecordingKind} {name : String} {since : Nat} {server : Server Key Object}
  {replies : Contract.Replies Key Object}

theorem Writer.ended_stable (kind : ProfileRecordingKind) (name : String) (since : Nat) (writer : Writer) :
    (profileGrowth kind name since).contract.Stable (writer.Ended kind name) := by
  intro first second outcome grows _ ended
  cases outcome with
  | stored =>
    obtain ⟨stored, held, within⟩ := ended
    obtain ⟨current, heldCurrent, grown⟩ := grows.held rfl held
    exact ⟨current, heldCurrent, within.trans grown⟩
  | dropped =>
    obtain ⟨isRecorder, profile, stored, seen, foreign⟩ := ended
    exact ⟨isRecorder, profile, stored, grows.seen seen, foreign⟩
  | storedPartial => exact ended
  | failed fault => trivial

theorem sound_writeProfile (above : merger.Above) {target : ProfileTarget} (desired : Spec)
    (merges : target.merge = true) (atName : target.name = name)
    (inv : (profileGrowth kind name since).Inv server) :
    (profileGrowth kind name since).contract.Sound replies
      ((profileGrowth kind name since).Ended (.profile kind name)
        (updateStoredProfile merger target desired) desired)
      (writeProfile merger target desired kind) server := by
  subst atName
  have adds := (updateStoredProfile_merges above target desired since merges).adds_growth kind target.name
  exact Contract.sound_retryOnError (adds.writes rfl).stable (fun later _ => (adds.writes rfl).sound later) 4 server
    inv

theorem dropped_of_refused {target : ProfileTarget} {desired profile : Spec} {profileName : String}
    {error : OwnerError}
    (refused : Growth.Refused (.profile kind profileName) (updateStoredProfile merger target desired) server
      (.error (.refused (.owner error)))) :
    (Writer.recorder target profile).Ended kind name server .dropped := by
  obtain ⟨base, seen, refused⟩ := refused
  obtain ⟨stored, rfl, foreign⟩ := updateStoredProfile_owner refused
  exact ⟨⟨target, profile, rfl⟩, profileName, stored, seen stored rfl, foreign⟩

/-- The partial profile is stored apart from the merged one. -/
theorem sound_storePartialProfile {target : ProfileTarget} (desired profile : Spec)
    (elsewhere : target.partialName ≠ name) (inv : (profileGrowth kind name since).Inv server) :
    (profileGrowth kind name since).contract.Sound replies ((Writer.recorder target profile).Ended kind name)
      (storePartialProfile merger target desired kind) server := by
  have apart : ¬ (profileGrowth kind name since).keys (.profile kind target.toPartial.name) := by
    simpa [profileGrowth, ProfileTarget.toPartial] using elsewhere
  have writes := (profileGrowth kind name since).writes_elsewhere
    (updateStoredProfile merger target.toPartial desired) apart
  have stable := Writer.ended_stable kind name since (.recorder target profile)
  refine Contract.Sound.bind
    ((Contract.sound_retryOnError writes.stable (fun later _ => writes.sound later) 4 server inv).imp ?_) inv
  intro later result _ refused
  rcases result with ((owner | merge | _ | _) | _) | _
  · have dropped : (Writer.recorder target.toPartial profile).Ended kind name later .dropped :=
      dropped_of_refused refused
    obtain ⟨_, foreignProfile⟩ := dropped
    exact stable.sound_ret ⟨⟨target, profile, rfl⟩, foreignProfile⟩
  · exact stable.sound_ret trivial
  · exact stable.sound_ret trivial
  · exact stable.sound_ret trivial
  · exact stable.sound_ret trivial
  · exact stable.sound_ret ⟨target, profile, rfl⟩

/-- The recorder retries on a conflict with what is stored then. It ends with its rules in the profile, or reports
why not. -/
theorem sound_storeProfile (above : merger.Above) {target : ProfileTarget} (profile : Spec)
    (merges : target.merge = true) (atName : target.name = name) (elsewhere : target.partialName ≠ name)
    (inv : (profileGrowth kind name since).Inv server) :
    (profileGrowth kind name since).contract.Sound replies ((Writer.recorder target profile).Ended kind name)
      (storeProfile merger target profile kind) server := by
  have stable := Writer.ended_stable kind name since (.recorder target profile)
  have same : ∀ rule, (if target.disable then profile.withState .disabled else profile).Contains rule ↔
      profile.Contains rule := by
    intro rule
    split
    · exact Spec.contains_withState profile .disabled rule
    · exact Iff.rfl
  refine Contract.Sound.bind ((sound_writeProfile above _ merges atName inv).imp ?_) inv
  intro later result invLater ended
  rcases result with ((owner | merge | _ | _) | _) | _
  · exact stable.sound_ret (dropped_of_refused ended.refused)
  · exact sound_storePartialProfile _ profile elsewhere invLater
  · exact stable.sound_ret trivial
  · exact stable.sound_ret trivial
  · exact stable.sound_ret trivial
  · obtain ⟨current, held, within⟩ := ended.contains rfl
    refine stable.sound_ret ⟨current, held, fun rule contained => within rule ((same rule).mpr contained)⟩

theorem sound_createUpdateProfile (above : merger.Above) {recording : Recording} (partialSpec : Spec)
    (coverage : Option SyscallCoverage) (notEarlier : recording.created ≤ since)
    (inv : (profileGrowth kind name since).Inv server) :
    (profileGrowth kind name since).contract.Sound replies
      ((profileGrowth kind name since).Ended (.profile kind name)
        (updateMergedProfile merger recording kind partialSpec coverage) partialSpec)
      (createUpdateProfile merger recording name partialSpec kind coverage) server := by
  have adds := (updateMergedProfile_merges above recording kind partialSpec coverage notEarlier).adds_growth kind
    name
  exact Contract.sound_retryOnError (adds.writes rfl).stable (fun later _ => (adds.writes rfl).sound later) 9 server
    inv

/-- Every writer keeps the profile growing, whatever the others do in between. -/
theorem Writer.sound_code (above : merger.Above) {writer : Writer} (mergesInto : writer.MergesInto name since)
    (inv : (profileGrowth kind name since).Inv server) :
    (profileGrowth kind name since).contract.Sound replies (writer.Ended kind name) (writer.code merger kind name)
      server := by
  cases writer with
  | recorder target profile =>
    obtain ⟨rfl, merges, _, _, _, _, _, _, named, resolved⟩ := mergesInto
    exact sound_storeProfile above profile merges rfl (partialName_ne_name named resolved merges) inv
  | merger recording partialSpec coverage =>
    have stable := Writer.ended_stable kind name since (.merger recording partialSpec coverage)
    refine Contract.Sound.bind ((sound_createUpdateProfile above partialSpec coverage mergesInto inv).imp ?_) inv
    intro later result _ ended
    rcases result with _ | _
    · exact stable.sound_ret trivial
    · exact stable.sound_ret (ended.contains rfl)

end sound

/-- Writers of one profile, next to others that leave it alone. -/
def writerRules (kind : ProfileRecordingKind) (name : String) (since : Nat) : Rules Key Object Writer where
  starts _ writer := writer.MergesInto name since
  replies _ _ _ _ := True
  others server disturbance :=
    (server.disturb disturbance).objects.lookup (.profile kind name) = server.objects.lookup (.profile kind name)

theorem profileGrowth_inv {kind : ProfileRecordingKind} {name : String} {since : Nat} {server : Server Key Object}
    (fresh : server.past = []) (time : since ≤ server.clock)
    (notEarlier : ∀ stored, server.Holds (.profile kind name) stored → since ≤ stored.created) :
    (profileGrowth kind name since).Inv server where
  time := time
  good {_ stored} isKey held := notEarlier stored (isKey ▸ held)
  kept {key stored} _ seen := by
    obtain ⟨view, member, found⟩ := seen
    rw [Server.views, fresh, List.mem_singleton] at member
    subst member
    exact ⟨stored, found, le_refl _⟩

/-- Every run of writers of one profile keeps what each of them wrote. A writer that reports success has its rules
in the profile, unless it is a recorder that dropped them for a profile of another recording or stored them in a
partial profile. -/
theorem contribution_kept_or_reported {merger : Merger} (above : merger.Above) {kind : ProfileRecordingKind}
    {name : String} {since : Nat} {first world : World Key Object Writer StoreOutcome} (idle : first.clients = [])
    (fresh : first.server.past = []) (time : since ≤ first.server.clock)
    (notEarlier : ∀ stored, first.server.Holds (.profile kind name) stored → since ≤ stored.created)
    (reach : World.Reach (Writer.code merger kind name) (writerRules kind name since) first world) :
    ∀ writer outcome, (writer, .ret outcome) ∈ world.clients → outcome.reportsSuccess = true →
      (∃ current, world.server.Holds (.profile kind name) current ∧
        writer.contribution.Within current.body.spec) ∨
      ∃ target profile, writer = .recorder target profile ∧ (outcome = .storedPartial ∨
        (outcome = .dropped ∧ ∃ profile stored, world.server.Seen (.profile kind profile) stored ∧
          stored.body.labels.Foreign target.recordingName target.namespaceName)) := by
  have kept : (profileGrowth kind name since).contract.Kept (writerRules kind name since)
      (fun writer => writer.Ended kind name) first world :=
    Contract.kept_of_reach (profileGrowth_inv fresh time notEarlier) idle
      (fun _ _ inv mergesInto => Writer.sound_code above mergesInto inv)
      (fun _ _ inv untouched => inv.disturb fun _ isKey => isKey ▸ untouched) reach
  intro writer outcome ended success
  have post := kept.finished ended
  cases outcome with
  | stored => exact Or.inl post
  | dropped =>
    obtain ⟨⟨target, profile, rfl⟩, foreign⟩ := post
    exact Or.inr ⟨target, profile, rfl, Or.inr ⟨rfl, foreign⟩⟩
  | storedPartial =>
    obtain ⟨target, profile, rfl⟩ := post
    exact Or.inr ⟨target, profile, rfl, Or.inl rfl⟩
  | failed fault => cases success

/-- A seccomp profile as the recorder builds it. -/
def seccompAllowing (architectures : List Arch) (names : List String) : Spec :=
  .seccomp
    { state := .unset
      defaultAction := .errno
      architectures := architectures
      syscalls := [{ names := names, action := .allow, errnoRet := 0, args := [] }] }

def webTarget : ProfileTarget where
  name := "rec-web"
  namespaceName := "ns"
  labels :=
    { recording := some "rec", recordingNamespace := some "ns", container := some "web", partialProfile := none }
  recordingName := "rec"
  disable := false
  merge := true
  partialName := "rec-web-pod"

def webMerger : Writer :=
  .merger { name := "rec", namespaceName := "ns", created := 5 } (seccompAllowing [.x86_64] ["read"]) none

def webRecorder : Writer := .recorder webTarget (seccompAllowing [.x86_64] ["write"])

/-- Both writers find no profile, one creates it, and the other merges into it after it failed to create it. -/
def webRace : List (Act Key Object Writer) :=
  [.start webMerger, .start webRecorder, .serve 0 (.serve 0), .serve 1 (.serve 0), .serve 0 (.serve 0),
    .serve 1 (.serve 0), .serve 1 (.serve 0), .serve 1 (.serve 0)]

theorem webRace_permitted (world : World Key Object Writer StoreOutcome) :
    ∀ act ∈ webRace, (writerRules .seccompProfile "rec-web" 5).Permits world act := by
  have recorder : webRecorder.MergesInto "rec-web" 5 :=
    ⟨rfl, rfl, "rec", "web", "", "pod", "ns", .found ⟨true, false⟩ true, by decide, by decide⟩
  have merger : webMerger.MergesInto "rec-web" 5 := Nat.le_refl 5
  simp [webRace, Rules.Permits, writerRules, recorder, merger]

theorem webRace_contributions : ∃ world,
    World.run (Writer.code plainMerger .seccompProfile "rec-web") ⟨Server.empty 10, []⟩ webRace = some world ∧
      (webRecorder, .ret .stored) ∈ world.clients ∧
      ((∃ current, world.server.Holds (.profile .seccompProfile "rec-web") current ∧
        webRecorder.contribution.Within current.body.spec) ∨
      ∃ target profile, webRecorder = .recorder target profile ∧ (StoreOutcome.stored = .storedPartial ∨
        (StoreOutcome.stored = .dropped ∧
          ∃ profile stored, world.server.Seen (.profile .seccompProfile profile) stored ∧
            stored.body.labels.Foreign target.recordingName target.namespaceName))) := by
  refine ⟨_, rfl, List.mem_cons_of_mem _ List.mem_cons_self, ?_⟩
  have reach : World.Reach (Writer.code plainMerger .seccompProfile "rec-web")
      (writerRules .seccompProfile "rec-web" 5) ⟨Server.empty 10, []⟩ _ :=
    .of_run (fun act member world => webRace_permitted world act member) rfl
  refine contribution_kept_or_reported plainMerger_above rfl rfl (by decide) ?_ reach _ _
    (List.mem_cons_of_mem _ List.mem_cons_self) rfl
  intro stored held
  cases held

/-- The recorder reports success and drops its data if the profile belongs to another recording. -/
theorem recorder_drops_contribution : ∃ world current,
    World.run (Writer.code plainMerger .seccompProfile "rec-web") ⟨Server.empty 10, []⟩
      [.other (.call (.create (.profile .seccompProfile "rec-web")
          { labels := { recording := some "other", recordingNamespace := some "ns",
                        container := none, partialProfile := none }
            finalizers := [], syscallCoverage := none, spec := seccompAllowing [.x86_64] ["read"] })),
        .start webRecorder, .serve 0 (.serve 0)] = some world ∧
      (webRecorder, .ret .dropped) ∈ world.clients ∧ StoreOutcome.dropped.reportsSuccess = true ∧
      world.server.Holds (.profile .seccompProfile "rec-web") current ∧ 5 ≤ current.created ∧
      ¬ webRecorder.contribution.Within current.body.spec := by
  refine ⟨_, _, rfl, List.mem_cons_self, rfl, rfl, by decide, fun within => ?_⟩
  have recorded : webRecorder.contribution.Contains (.syscall ⟨"write", .allow, none, []⟩) := by
    show SyscallRules _ _
    decide
  exact absurd (within _ recorded) (by show ¬ SyscallRules _ _; decide)

end SecurityProfiles
