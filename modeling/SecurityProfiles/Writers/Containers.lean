import SecurityProfiles.Library.Confined
import SecurityProfiles.Naming.Hashed
import SecurityProfiles.Writers.NoLostUpdate

namespace SecurityProfiles

open VersionedStore

/-- A container of a recording, told apart from those of other pods by the suffix. -/
structure RecordedContainer where
  cntName : String
  replicaSuffix : String
deriving DecidableEq

/-- What the recorder collected for a container. -/
structure Collected where
  container : RecordedContainer
  podName : String
  recording : RecordingLookup
  profile : Spec

/-- The recording does not merge its profiles. -/
def RecordingLookup.Unmerged : RecordingLookup → Prop
  | .found state _ => state.isPartial = false
  | .gone state => ∀ known, state = some known → known.isPartial = false

def Collected.target (profileName podNamespace : String) (collected : Collected) :
    Except TargetError ProfileTarget :=
  resolveProfileTarget profileName collected.container.cntName collected.container.replicaSuffix collected.podName
    podNamespace collected.recording

def collectProfile (merger : Merger) (kind : ProfileRecordingKind) (profileName podNamespace : String)
    (collected : Collected) : Prog Key Object (Except TargetError StoreOutcome) :=
  match collected.target profileName podNamespace with
  | .error error => return .error error
  | .ok target => do
      let outcome ← storeProfile merger target collected.profile kind
      return .ok outcome

/-- Recorders of containers of the recording; others do what they like. -/
def collectRules : Rules Key Object Collected where
  starts _ collected := collected.recording.Unmerged
  replies _ _ _ _ := True
  others _ _ := True

/-- The name of the first container goes on in that of the second one, with a part that the first suffix starts
with. -/
def RecordedContainer.Overlaps (first second : RecordedContainer) : Prop :=
  first.replicaSuffix ≠ "" ∧ ∃ part, second.cntName = first.cntName ++ "-" ++ part ∧
    first.replicaSuffix = if second.replicaSuffix = "" then part else part ++ "-" ++ second.replicaSuffix

section names

variable {first second : RecordedContainer} {profileName podNamespace : String}

def RecordedContainer.profileNameIn (container : RecordedContainer) (recording : String) : String :=
  createProfileName container.cntName container.replicaSuffix recording

theorem target_unmerged {collected : Collected} {target : ProfileTarget} (unmerged : collected.recording.Unmerged)
    (resolved : collected.target profileName podNamespace = .ok target) :
    target.name = collected.container.profileNameIn profileName ∧ target.merge = false := by
  unfold Collected.target resolveProfileTarget at resolved
  split at resolved
  · cases resolved
  · obtain ⟨⟨state, merge⟩, storage, resolved⟩ := Fallible.bind_ok.mp resolved
    obtain rfl := Fallible.pure_ok.mp resolved
    have plain : state.isPartial = false ∧ merge = false := by
      cases lookup : collected.recording with
      | found known deleting =>
        rw [lookup] at storage unmerged
        cases storage
        have isPartial : state.isPartial = false := unmerged
        exact ⟨isPartial, by simp [isPartial]⟩
      | gone known =>
        rw [lookup] at storage unmerged
        cases known with
        | none => cases storage
        | some known =>
          cases storage
          exact ⟨unmerged state rfl, unmerged state rfl⟩
    simp [plain.1, plain.2, RecordedContainer.profileNameIn]

theorem toList_dash (start rest : String) : (start ++ "-" ++ rest).toList = start.toList ++ '-' :: rest.toList := by
  simp [String.toList_append]

theorem dash_eq_iff {start rest start' rest' : String} : start ++ "-" ++ rest = start' ++ "-" ++ rest' ↔
    (start = start' ∧ rest = rest') ∨
      (∃ part, start' = start ++ "-" ++ part ∧ rest = part ++ "-" ++ rest') ∨
      ∃ part, start = start' ++ "-" ++ part ∧ rest' = part ++ "-" ++ rest := by
  constructor
  · intro same
    have lists := congrArg String.toList same
    rw [toList_dash, toList_dash, Naming.append_dash_eq_iff] at lists
    rcases lists with ⟨starts, rests⟩ | ⟨part, longer, rests⟩ | ⟨part, longer, rests⟩
    · exact Or.inl ⟨String.toList_inj.mp starts, String.toList_inj.mp rests⟩
    · refine Or.inr (Or.inl ⟨String.ofList part, String.toList_inj.mp ?_, String.toList_inj.mp ?_⟩)
      · rw [toList_dash, String.toList_ofList, longer]
      · rw [toList_dash, String.toList_ofList, rests]
    · refine Or.inr (Or.inr ⟨String.ofList part, String.toList_inj.mp ?_, String.toList_inj.mp ?_⟩)
      · rw [toList_dash, String.toList_ofList, longer]
      · rw [toList_dash, String.toList_ofList, rests]
  · rintro (⟨rfl, rfl⟩ | ⟨part, rfl, rfl⟩ | ⟨part, rfl, rfl⟩) <;> simp [String.append_assoc]

theorem dash_cancel {start rest rest' : String} : start ++ "-" ++ rest = start ++ "-" ++ rest' ↔ rest = rest' := by
  rw [← String.toList_inj, toList_dash, toList_dash, List.append_cancel_left_eq, List.cons.injEq, String.toList_inj]
  exact and_iff_right rfl

theorem profileName_of_suffix (some' : first.replicaSuffix ≠ "") : first.profileNameIn profileName =
    profileName ++ "-" ++ (first.cntName ++ "-" ++ first.replicaSuffix) := by
  rw [RecordedContainer.profileNameIn, createProfileName, if_pos some']
  simp [String.append_assoc]

theorem profileName_of_none (none' : first.replicaSuffix = "") :
    first.profileNameIn profileName = profileName ++ "-" ++ first.cntName := by
  rw [RecordedContainer.profileNameIn, createProfileName, if_neg (not_not.mpr none')]

theorem overlaps_none (some' : first.replicaSuffix ≠ "") (none' : second.replicaSuffix = "") :
    first.Overlaps second ↔ second.cntName = first.cntName ++ "-" ++ first.replicaSuffix := by
  simp only [RecordedContainer.Overlaps, if_pos none']
  constructor
  · rintro ⟨_, part, longer, rfl⟩
    exact longer
  · intro longer
    exact ⟨some', _, longer, rfl⟩

theorem not_overlaps (none' : first.replicaSuffix = "") : ¬first.Overlaps second := fun overlap => overlap.1 none'

theorem container_eq_iff : first = second ↔
    first.cntName = second.cntName ∧ first.replicaSuffix = second.replicaSuffix := by
  cases first
  cases second
  simp

/-- Names agree for the same container, and for containers whose names overlap. -/
theorem profileName_eq_iff : first.profileNameIn profileName = second.profileNameIn profileName ↔
    first = second ∨ first.Overlaps second ∨ second.Overlaps first := by
  rw [container_eq_iff]
  by_cases none' : first.replicaSuffix = "" <;> by_cases none'' : second.replicaSuffix = ""
  · rw [profileName_of_none none', profileName_of_none none'', dash_cancel]
    simp [not_overlaps none', not_overlaps none'', none', none'']
  · rw [profileName_of_none none', profileName_of_suffix none'', dash_cancel, overlaps_none none'' none']
    simp [not_overlaps none', none', Ne.symm none'']
  · rw [profileName_of_suffix none', profileName_of_none none'', dash_cancel, overlaps_none none' none'']
    simp [not_overlaps none'', none', none'', eq_comm]
  · rw [profileName_of_suffix none', profileName_of_suffix none'', dash_cancel, dash_eq_iff]
    simp only [RecordedContainer.Overlaps, ne_eq, none', none'', not_false_eq_true, true_and, if_false]

end names

section stores

variable {merger : Merger} {kind : ProfileRecordingKind} {profileName podNamespace : String}

theorem storeProfile_confined {target : ProfileTarget} (unmerged : target.merge = false) (profile : Spec) :
    (storeProfile merger target profile kind).Confined (Call.WritesOnly (· = .profile kind target.name))
      fun _ => True := by
  have refused : ∀ desired base error, updateStoredProfile merger target desired base = .error error →
      ∀ failure, error ≠ .merge failure := by
    rintro desired base error computed failure rfl
    rw [updateStoredProfile, specToStore, unmerged] at computed
    cases checked : checkRecordingOwner base target.recordingName target.namespaceName <;>
      simp [checked, Except.mapError, bind, Except.bind, pure, Except.pure] at computed
  have written : ∀ desired, (writeProfile merger target desired kind).Confined
      (Call.WritesOnly (· = .profile kind target.name)) fun result => ∀ error, result = .error (.refused error) →
        ∃ base, updateStoredProfile merger target desired base = .error error := by
    intro desired
    refine retryOnError_confined (createOrUpdate_confined _ ?_ ?_ ?_) 4
    all_goals simp [Call.WritesOnly, Call.written]
  refine (written _).bind ?_
  rintro (((owner | failure | _ | _) | _) | _) ended
  · trivial
  · obtain ⟨base, computed⟩ := ended _ rfl
    exact absurd rfl (refused _ base _ computed failure)
  all_goals trivial

theorem collectProfile_confined {collected : Collected} (unmerged : collected.recording.Unmerged) :
    (collectProfile merger kind profileName podNamespace collected).Confined
      (Call.WritesOnly (· = .profile kind (collected.container.profileNameIn profileName))) fun _ => True := by
  unfold collectProfile
  split
  · trivial
  · next target resolved =>
      obtain ⟨name, notMerged⟩ := target_unmerged unmerged resolved
      rw [← name]
      exact (storeProfile_confined notMerged _).bind fun _ _ => trivial

end stores

/-- Two containers of a recording without merging have different profiles exactly if the names of container and
suffix do not overlap, and then no step of storing the profile of one touches that of the other, whatever others
do. -/
theorem container_profiles_differ_iff (merger : Merger) (kind : ProfileRecordingKind)
    (profileName podNamespace : String) (first second : Collected) (unmerged : first.recording.Unmerged)
    (unmerged' : second.recording.Unmerged) (different : first.container ≠ second.container)
    {target target' : ProfileTarget} (resolved : first.target profileName podNamespace = .ok target)
    (resolved' : second.target profileName podNamespace = .ok target') :
    (target.name ≠ target'.name ↔
      ¬first.container.Overlaps second.container ∧ ¬second.container.Overlaps first.container) ∧
    (¬first.container.Overlaps second.container → ¬second.container.Overlaps first.container →
      ∀ start world : World Key Object Collected (Except TargetError StoreOutcome), start.clients = [] →
      World.Reach (collectProfile merger kind profileName podNamespace) collectRules start world →
      ∀ (client : Nat) (request : Call Key Object)
        (next : Except ApiError request.Answer → Prog Key Object (Except TargetError StoreOutcome))
        (treatment : Server.Treatment) (reply : Except ApiError request.Answer) (changed : Server Key Object)
        (stored : Stored Object), world.clients[client]? = some (first, .call request next) →
      world.server.answer request treatment = some (reply, changed) →
      world.server.Holds (.profile kind target'.name) stored →
      changed.Holds (.profile kind target'.name) stored) := by
  have name := (target_unmerged unmerged resolved).1
  have name' := (target_unmerged unmerged' resolved').1
  have names : target.name = target'.name ↔
      first.container.Overlaps second.container ∨ second.container.Overlaps first.container := by
    rw [name, name', profileName_eq_iff, or_iff_right different]
  refine ⟨by rw [← not_or, not_iff_not, names], ?_⟩
  intro apart apart' start world idle reach client request next treatment reply changed stored pending answered held
  refine reach.holds (fun collected key => key = .profile kind (collected.container.profileNameIn profileName))
    idle (fun _ collected unmerged => collectProfile_confined unmerged) pending answered ?_ held
  intro same
  have sameName : target'.name = target.name := by
    rw [name]
    injection same
  rcases names.mp sameName.symm with overlap | overlap
  · exact apart overlap
  · exact apart' overlap

section containers

/-- What was collected for containers that allow one syscall. -/
def collectedFor (cntName replicaSuffix syscall : String) : Collected where
  container := ⟨cntName, replicaSuffix⟩
  podName := "pod"
  recording := .found ⟨false, false⟩ false
  profile := seccompAllowing [.x86_64] [syscall]

/-- The first profile is stored, and the recorder of the second one is about to write its own. -/
def collectRun (first second : Collected) : List (Act Key Object Collected) :=
  [.start first, .serve 0 (.serve 0), .serve 0 (.serve 0), .start second, .serve 1 (.serve 0)]

theorem collectRun_permitted (world : World Key Object Collected (Except TargetError StoreOutcome)) :
    ∀ act ∈ collectRun (collectedFor "web" "x" "read") (collectedFor "db" "x" "write"),
      collectRules.Permits world act := by
  simp [collectRun, Rules.Permits, collectRules, collectedFor, RecordingLookup.Unmerged]

theorem other_container_kept : ∃ world next stored,
    World.run (collectProfile plainMerger .seccompProfile "rec" "ns") ⟨Server.empty 10, []⟩
      (collectRun (collectedFor "web" "x" "read") (collectedFor "db" "x" "write")) = some world ∧
    world.step (collectProfile plainMerger .seccompProfile "rec" "ns") (.serve 1 (.serve 0)) = some next ∧
    world.server.Holds (.profile .seccompProfile "rec-web-x") stored ∧
    stored.body.spec = seccompAllowing [.x86_64] ["read"] ∧
    next.server.Holds (.profile .seccompProfile "rec-web-x") stored := by
  refine ⟨_, _, _, rfl, rfl, rfl, rfl, ?_⟩
  have reach : World.Reach (collectProfile plainMerger .seccompProfile "rec" "ns") collectRules
      ⟨Server.empty 10, []⟩ _ :=
    .of_run (fun act member world => collectRun_permitted world act member) rfl
  have apart : ∀ first second : RecordedContainer, first.replicaSuffix = "x" → second.replicaSuffix = "x" →
      ¬first.Overlaps second := by
    rintro ⟨cntName, _⟩ ⟨cntName', _⟩ rfl rfl ⟨_, part, _, same⟩
    have lengths := congrArg (fun text => text.toList.length) same
    simp at lengths
  exact (container_profiles_differ_iff plainMerger .seccompProfile "rec" "ns" (collectedFor "db" "x" "write")
    (collectedFor "web" "x" "read") rfl rfl (by decide) rfl rfl).2 (apart _ _ rfl rfl)
      (apart _ _ rfl rfl) _ _ rfl reach 1 _ _ (.serve 0) _ _ _ rfl rfl rfl

/-- The profile of one container replaces the rules that were recorded for another one. -/
theorem container_profile_replaced : ∃ world stored,
    World.run (collectProfile plainMerger .seccompProfile "rec" "ns") ⟨Server.empty 10, []⟩
      (collectRun (collectedFor "a" "b-c" "read") (collectedFor "a-b" "c" "write") ++ [.serve 1 (.serve 0)]) =
        some world ∧
    (collectedFor "a" "b-c" "read").container ≠ (collectedFor "a-b" "c" "write").container ∧
    world.server.Holds (.profile .seccompProfile "rec-a-b-c") stored ∧
    stored.body.labels.container = some "a" ∧ stored.body.spec = seccompAllowing [.x86_64] ["write"] := by
  exact ⟨_, _, rfl, by decide, rfl, rfl, rfl⟩

end containers

end SecurityProfiles
