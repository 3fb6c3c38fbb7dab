import SecurityProfiles.Tracking.Annotations

namespace SecurityProfiles.Tracking

open List

section profiles

variable (selects : Selects) (recordings : List ProfileRecording) (pod : Pod) (recorder : ProfileRecorder)

/-- The annotation asks for something to be recorded by the recorder. -/
def Traces (key value : Str) : Prop :=
  pod.annotations.lookup key = some value ∧ ∃ kind ∈ annotationKinds recorder, kind.1 <+: key

/-- Some annotation of the right kind has the profile as its value, and a recording asks for it. -/
def Authorized (profile : ProfileToCollect) : Prop :=
  ∃ start rest parsed, (start, profile.kind) ∈ annotationKinds recorder ∧
    pod.annotations.lookup (start ++ rest) = some profile.name ∧ parseProfileAnnotation profile.name = some parsed ∧
    ∃ recording ∈ recordings, authorizes selects pod.labels parsed profile.kind recorder recording = true

/-- The same, where the key of the annotation names the container that its value names. -/
def Entitled (profile : ProfileToCollect) : Prop :=
  ∃ start parsed, (start, profile.kind) ∈ annotationKinds recorder ∧
    pod.annotations.lookup (start ++ parsed.cntName) = some profile.name ∧
    parseProfileAnnotation profile.name = some parsed ∧
    ∃ recording ∈ recordings, authorizes selects pod.labels parsed profile.kind recorder recording = true

/-- Every annotation that asks for a recording has a value. -/
def AllNamed : Prop := ∀ recorder key value, Traces pod recorder key value → value ≠ []

/-- The recorder that is used for the pod. -/
def Chosen : ProfileRecorder → Prop
  | .logs => ∃ key value, Traces pod .logs key value
  | .bpf => ∀ key value, ¬Traces pod .logs key value

def Tracks (watched : PodsToWatch) (name : Str) (profile : ProfileToCollect) : Prop :=
  ∃ entry, watched.lookup name = some entry ∧ entry.recorder = recorder ∧ profile ∈ entry.profiles

end profiles

section parse

variable {pod : Pod} {recorder : ProfileRecorder}

theorem kind_unique {first second : Str × RecordingKind} (member : first ∈ annotationKinds recorder)
    (other : second ∈ annotationKinds recorder) {key : Str} (start : first.1 <+: key)
    (otherStart : second.1 <+: key) : first = second := by
  have apart : ∀ first ∈ annotationKinds recorder, ∀ second ∈ annotationKinds recorder,
      first.1.isPrefixOf second.1 = true → first = second := by
    cases recorder <;> decide
  rcases prefix_or_prefix_of_prefix start otherStart with below | above
  · exact apart _ member _ other (List.isPrefixOf_iff_prefix.mpr below)
  · exact (apart _ other _ member (List.isPrefixOf_iff_prefix.mpr above)).symm

theorem find_kind {key : Str} {kind : Str × RecordingKind} :
    (annotationKinds recorder).find? (fun kind => kind.1.isPrefixOf key) = some kind ↔
      kind ∈ annotationKinds recorder ∧ kind.1 <+: key := by
  constructor
  · intro found
    have starts := find?_some found
    exact ⟨mem_of_find?_eq_some found, isPrefixOf_iff_prefix.mp starts⟩
  · rintro ⟨member, start⟩
    cases found : (annotationKinds recorder).find? (fun kind => kind.1.isPrefixOf key) with
    | none => exact absurd (List.isPrefixOf_iff_prefix.mpr start) (find?_eq_none.mp found kind member)
    | some other =>
      have otherStart := find?_some found
      rw [kind_unique (mem_of_find?_eq_some found) member (List.isPrefixOf_iff_prefix.mp otherStart) start]

/-- What the parser returns, by the annotations it was given. -/
theorem parseAnnotations_spec (entries : List (Sigma fun _ : Str => Str)) :
    (parseAnnotations (annotationKinds recorder) entries = none ↔
      ∃ entry ∈ entries, (∃ kind ∈ annotationKinds recorder, kind.1 <+: entry.1) ∧ entry.2 = []) ∧
    ∀ profiles, parseAnnotations (annotationKinds recorder) entries = some profiles →
      ∀ profile, profile ∈ profiles ↔
      ∃ entry ∈ entries, (∃ start, (start, profile.kind) ∈ annotationKinds recorder ∧ start <+: entry.1) ∧
        entry.2 = profile.name := by
  induction entries with
  | nil => simp [parseAnnotations]
  | cons entry rest ih =>
    obtain ⟨key, value⟩ := entry
    obtain ⟨failing, listing⟩ := ih
    rw [parseAnnotations]
    cases found : (annotationKinds recorder).find? (fun kind => kind.1.isPrefixOf key) with
    | none =>
      have unmatched : ∀ kind ∈ annotationKinds recorder, ¬kind.1 <+: key := by
        intro kind member start
        rw [find_kind.mpr ⟨member, start⟩] at found
        cases found
      constructor
      · dsimp only
        rw [failing]
        constructor
        · rintro ⟨entry, member, trace⟩
          exact ⟨entry, mem_cons_of_mem _ member, trace⟩
        · rintro ⟨entry, member, ⟨kind, isKind, start⟩, empty⟩
          rcases mem_cons.mp member with rfl | member
          · exact absurd start (unmatched kind isKind)
          · exact ⟨entry, member, ⟨kind, isKind, start⟩, empty⟩
      · intro profiles parsed profile
        rw [listing profiles parsed]
        constructor
        · rintro ⟨entry, member, trace⟩
          exact ⟨entry, mem_cons_of_mem _ member, trace⟩
        · rintro ⟨entry, member, ⟨start, isKind, starts⟩, named⟩
          rcases mem_cons.mp member with rfl | member
          · exact absurd starts (unmatched _ isKind)
          · exact ⟨entry, member, ⟨start, isKind, starts⟩, named⟩
    | some kind =>
      obtain ⟨isKind, starts⟩ := find_kind.mp found
      dsimp only
      by_cases empty : value = []
      · rw [if_pos empty]
        refine ⟨⟨fun _ => ⟨_, mem_cons_self, ⟨kind, isKind, starts⟩, empty⟩, fun _ => rfl⟩, ?_⟩
        rintro profiles ⟨⟩
      · rw [if_neg empty]
        constructor
        · rw [Option.map_eq_none_iff, failing]
          constructor
          · rintro ⟨entry, member, trace⟩
            exact ⟨entry, mem_cons_of_mem _ member, trace⟩
          · rintro ⟨entry, member, trace, isEmpty⟩
            rcases mem_cons.mp member with rfl | member
            · exact absurd isEmpty empty
            · exact ⟨entry, member, trace, isEmpty⟩
        · intro profiles parsed profile
          obtain ⟨others, parsedOthers, rfl⟩ := Option.map_eq_some_iff.mp parsed
          rw [mem_cons, listing others parsedOthers]
          constructor
          · rintro (rfl | ⟨entry, member, trace⟩)
            · exact ⟨_, mem_cons_self, ⟨kind.1, isKind, starts⟩, rfl⟩
            · exact ⟨entry, mem_cons_of_mem _ member, trace⟩
          · rintro ⟨entry, member, ⟨start, ofKind, startsKey⟩, named⟩
            rcases mem_cons.mp member with rfl | member
            · left
              have same : kind = (start, profile.kind) := kind_unique isKind ofKind starts startsKey
              rw [same]
              exact congrArg (ProfileToCollect.mk profile.kind) named.symm
            · exact Or.inr ⟨entry, member, ⟨start, ofKind, startsKey⟩, named⟩

theorem parse_eq_none : parseAnnotations (annotationKinds recorder) pod.annotations.entries = none ↔
    ∃ key, Traces pod recorder key [] := by
  rw [(parseAnnotations_spec _).1]
  constructor
  · rintro ⟨⟨key, value⟩, member, trace, rfl⟩
    exact ⟨key, SortedMap.mem_entries.mp member, trace⟩
  · rintro ⟨key, found, trace⟩
    exact ⟨⟨key, []⟩, SortedMap.mem_entries.mpr found, trace, rfl⟩

section

variable {profiles : List ProfileToCollect}
  (parsed : parseAnnotations (annotationKinds recorder) pod.annotations.entries = some profiles)
include parsed

theorem mem_parse {profile : ProfileToCollect} :
    profile ∈ profiles ↔ ∃ start rest, (start, profile.kind) ∈ annotationKinds recorder ∧
      pod.annotations.lookup (start ++ rest) = some profile.name := by
  rw [(parseAnnotations_spec _).2 profiles parsed]
  constructor
  · rintro ⟨⟨key, value⟩, member, ⟨start, isKind, rest, rfl⟩, rfl⟩
    exact ⟨start, rest, isKind, SortedMap.mem_entries.mp member⟩
  · rintro ⟨start, rest, isKind, found⟩
    exact ⟨⟨_, _⟩, SortedMap.mem_entries.mpr found, ⟨start, isKind, prefix_append start rest⟩, rfl⟩

theorem parse_nil :
    profiles = [] ↔ ∀ key value, ¬Traces pod recorder key value := by
  constructor
  · rintro rfl key value ⟨found, kind, isKind, rest, rfl⟩
    have listed : ProfileToCollect.mk kind.2 value ∈ ([] : List ProfileToCollect) :=
      (mem_parse parsed).mpr ⟨kind.1, rest, isKind, found⟩
    cases listed
  · intro none
    refine eq_nil_iff_forall_not_mem.mpr fun profile member => ?_
    obtain ⟨start, rest, isKind, found⟩ := (mem_parse parsed).mp member
    exact none _ _ ⟨found, (start, profile.kind), isKind, prefix_append start rest⟩

end

end parse

section reconcile

variable {selects : Selects} {recordings : List ProfileRecording} {pod : Pod} {recorder : ProfileRecorder}

variable {profile : ProfileToCollect} {calls : Calls}

theorem mem_authorizedProfiles {profiles : List ProfileToCollect} :
    profile ∈ (authorizedProfiles selects recordings pod.labels recorder profiles).1 ↔ profile ∈ profiles ∧
      ∃ parsed, parseProfileAnnotation profile.name = some parsed ∧ ∃ recording ∈ recordings,
        authorizes selects pod.labels parsed profile.kind recorder recording = true := by
  simp only [authorizedProfiles, mem_filter, backing, recordingAuthorizes]
  cases parseProfileAnnotation profile.name with
  | none => simp
  | some parsed => simp

theorem allNamed_iff : AllNamed pod ↔ ∀ recorder, ∃ profiles,
    parseAnnotations (annotationKinds recorder) pod.annotations.entries = some profiles := by
  constructor
  · intro named recorder
    refine Option.ne_none_iff_exists'.mp fun failed => ?_
    obtain ⟨key, trace⟩ := parse_eq_none.mp failed
    exact named recorder key [] trace rfl
  · rintro parsed recorder key value trace rfl
    obtain ⟨profiles, same⟩ := parsed recorder
    rw [parse_eq_none.mpr ⟨key, trace⟩] at same
    cases same

theorem requestedProfiles_eq_some {requested : List ProfileToCollect} :
    requestedProfiles pod.annotations = some (recorder, requested) ↔ AllNamed pod ∧ Chosen pod recorder ∧
      parseAnnotations (annotationKinds recorder) pod.annotations.entries = some requested ∧ requested ≠ [] := by
  rw [allNamed_iff]
  constructor
  · intro found
    simp only [requestedProfiles, Option.bind_eq_bind, Option.bind_eq_some_iff] at found
    obtain ⟨logProfiles, logs, bpfProfiles, bpf, found⟩ := found
    refine ⟨?_, ?_⟩
    · rintro (_ | _)
      exacts [⟨logProfiles, logs⟩, ⟨bpfProfiles, bpf⟩]
    by_cases none : logProfiles = []
    · rw [if_neg (not_not.mpr none)] at found
      by_cases empty : bpfProfiles = []
      · rw [if_neg (not_not.mpr empty)] at found
        cases found
      · rw [if_pos empty] at found
        obtain ⟨rfl, rfl⟩ := Prod.mk.inj (Option.some.inj found)
        exact ⟨(parse_nil logs).mp none, bpf, empty⟩
    · rw [if_pos none] at found
      obtain ⟨rfl, rfl⟩ := Prod.mk.inj (Option.some.inj found)
      refine ⟨?_, logs, none⟩
      rw [parse_nil logs] at none
      push Not at none
      exact none
  · rintro ⟨parsed, chosen, found, some'⟩
    obtain ⟨logProfiles, logs⟩ := parsed .logs
    obtain ⟨bpfProfiles, bpf⟩ := parsed .bpf
    simp only [requestedProfiles, logs, bpf, Option.bind_eq_bind, Option.bind_some]
    cases recorder with
    | logs =>
      obtain rfl := Option.some.inj (logs.symm.trans found)
      rw [if_pos some']
    | bpf =>
      obtain rfl := Option.some.inj (bpf.symm.trans found)
      rw [if_neg (not_not.mpr ((parse_nil logs).mpr chosen)), if_pos some']

theorem trackPod_iff (name : Str) (listed : calls.recordings = some recordings) (started : calls.startBpf = true) :
    (∃ entry, trackPod selects calls name pod = some entry ∧ entry.recorder = recorder ∧ profile ∈ entry.profiles) ↔
      AllNamed pod ∧ Chosen pod recorder ∧ Authorized selects recordings pod recorder profile := by
  constructor
  · rintro ⟨entry, found, rfl, member⟩
    simp only [trackPod, Option.bind_eq_bind, Option.bind_eq_some_iff, listed, started] at found
    obtain ⟨⟨chosen, requested⟩, asked, _, ⟨⟩, found⟩ := found
    obtain ⟨named, isChosen, parsed, _⟩ := requestedProfiles_eq_some.mp asked
    dsimp only at found
    rw [Bool.not_true, Bool.and_false, if_neg Bool.false_ne_true] at found
    split at found
    · cases found
    · obtain rfl := Option.some.inj found
      obtain ⟨isRequested, value, isValue, backed⟩ := mem_authorizedProfiles.mp member
      obtain ⟨start, rest, isKind, found⟩ := (mem_parse parsed).mp isRequested
      exact ⟨named, isChosen, start, rest, value, isKind, found, isValue, backed⟩
  · rintro ⟨named, chosen, start, rest, value, isKind, found, isValue, backed⟩
    obtain ⟨requested, parsed⟩ := allNamed_iff.mp named recorder
    have isRequested : profile ∈ requested := (mem_parse parsed).mpr ⟨start, rest, isKind, found⟩
    have asked := requestedProfiles_eq_some.mpr ⟨named, chosen, parsed, ne_nil_of_mem isRequested⟩
    have member := mem_authorizedProfiles.mpr ⟨isRequested, value, isValue, backed⟩
    simp only [trackPod, asked, listed, started, Option.bind_eq_bind, Option.bind_some, Bool.not_true,
      Bool.and_false, if_neg (ne_nil_of_mem member), if_neg Bool.false_ne_true]
    exact ⟨_, rfl, rfl, member⟩

theorem tracks_reconcile {watched : PodsToWatch} {name : Str}
    (listed : calls.recordings = some recordings) (started : calls.startBpf = true)
    (live : pod.phase = .pending ∨ pod.phase = .running) (new : watched.lookup name = none)
    :
    Tracks recorder (reconcile selects calls watched name (some pod)) name profile ↔
      AllNamed pod ∧ Chosen pod recorder ∧ Authorized selects recordings pod recorder profile := by
  rw [← trackPod_iff name listed started]
  have shape : reconcile selects calls watched name (some pod) = watchPod selects calls watched name pod := by
    rcases live with phase | phase <;> simp only [reconcile, phase, new]
  rw [shape, watchPod, Tracks]
  cases trackPod selects calls name pod with
  | none => simp [new]
  | some entry => simp

theorem Entitled.authorized (entitled : Entitled selects recordings pod recorder profile) :
    Authorized selects recordings pod recorder profile := by
  obtain ⟨start, parsed, isKind, found, isParsed, backed⟩ := entitled
  exact ⟨start, parsed.cntName, parsed, isKind, found, isParsed, backed⟩

theorem Entitled.traces (entitled : Entitled selects recordings pod recorder profile) :
    ∃ key value, Traces pod recorder key value := by
  obtain ⟨start, parsed, isKind, found, _⟩ := entitled
  exact ⟨_, _, found, _, isKind, prefix_append start parsed.cntName⟩

/-- No annotation of the pod gets in the way of what the others are entitled to: none of those that ask for a
recording is empty if anything is to be recorded, no other recorder than the one that is used has anything to
record, and what is recorded under the key of a container is a profile of that container. -/
structure Undisturbed (selects : Selects) (recordings : List ProfileRecording) (pod : Pod) : Prop where
  named : ∀ recorder profile, Entitled selects recordings pod recorder profile → AllNamed pod
  alone : ∀ profile, Entitled selects recordings pod .bpf profile → Chosen pod .bpf
  ownKey : AllNamed pod → ∀ recorder, Chosen pod recorder → ∀ profile,
    Authorized selects recordings pod recorder profile → Entitled selects recordings pod recorder profile

/-- What is tracked for a pod is what its annotations are entitled to, if and only if none of them gets in the way
of the others. The pod is new to the tracker, and the recordings could be listed. -/
theorem tracked_iff_entitled {calls : Calls} {watched : PodsToWatch} {name : Str}
    (listed : calls.recordings = some recordings) (started : calls.startBpf = true)
    (live : pod.phase = .pending ∨ pod.phase = .running) (new : watched.lookup name = none) :
    (∀ recorder profile, Tracks recorder (reconcile selects calls watched name (some pod)) name profile ↔
      Entitled selects recordings pod recorder profile) ↔ Undisturbed selects recordings pod := by
  constructor
  · intro same
    have tracked : ∀ {recorder profile}, Entitled selects recordings pod recorder profile →
        AllNamed pod ∧ Chosen pod recorder ∧ Authorized selects recordings pod recorder profile := by
      intro recorder profile entitled
      exact (tracks_reconcile listed started live new).mp ((same recorder profile).mpr entitled)
    constructor
    · intro recorder profile entitled
      exact (tracked entitled).1
    · intro profile entitled
      exact (tracked entitled).2.1
    · intro named recorder chosen profile authorized
      exact (same recorder profile).mp ((tracks_reconcile listed started live new).mpr ⟨named, chosen, authorized⟩)
  · intro undisturbed recorder profile
    rw [tracks_reconcile listed started live new]
    constructor
    · rintro ⟨named, chosen, authorized⟩
      exact undisturbed.ownKey named recorder chosen profile authorized
    · intro entitled
      refine ⟨undisturbed.named recorder profile entitled, ?_, entitled.authorized⟩
      cases recorder with
      | logs => exact entitled.traces
      | bpf => exact undisturbed.alone profile entitled

end reconcile

section pods

/-- A recording of the system calls of every container, by the BPF recorder. -/
def bpfRecording : ProfileRecording where
  name := "rec".toList
  kind := .seccompProfile
  recorder := .bpf
  mergeContainers := false
  podSelector := some ⟨[], []⟩
  containers := none
  disableProfileAfterRecording := false

def bpfProfile : ProfileToCollect := ⟨.seccompProfile, "rec_web_n_1".toList⟩

/-- The annotation of one container, as the recording asks for it. -/
def bpfAnnotations : SortedMap Str Str :=
  SortedMap.empty.insert "io.containers.trace-bpf/web".toList bpfProfile.name

def pendingPod (annotations : SortedMap Str Str) : Pod := ⟨[], 1, [], annotations, .pending⟩

/-- Selectors without requirements select everything. -/
def selectsAll : Selects := fun selector _ => some selector.isSome

def listing : Calls := ⟨some [bpfRecording], true, true⟩

theorem lookup_bpfAnnotations {key value : Str} : bpfAnnotations.lookup key = some value ↔
    key = "io.containers.trace-bpf/web".toList ∧ value = bpfProfile.name := by
  rw [bpfAnnotations, SortedMap.lookup_insert]
  by_cases same : key = "io.containers.trace-bpf/web".toList
  · rw [if_pos same, Option.some_inj]
    exact ⟨fun found => ⟨same, found.symm⟩, fun found => found.2.symm⟩
  · rw [if_neg same, SortedMap.lookup_empty]
    exact ⟨fun found => absurd found (Option.some_ne_none value).symm, fun found => absurd found.1 same⟩

theorem entitled_bpfProfile {annotations : SortedMap Str Str}
    (found : annotations.lookup "io.containers.trace-bpf/web".toList = some bpfProfile.name) :
    Entitled selectsAll [bpfRecording] (pendingPod annotations) .bpf bpfProfile := by
  have backed : authorizes selectsAll [] ⟨"rec".toList, "web".toList, "n".toList, "1".toList⟩ .seccompProfile .bpf
      bpfRecording = true := by
    decide
  refine ⟨"io.containers.trace-bpf/".toList, ⟨"rec".toList, "web".toList, "n".toList, "1".toList⟩, by decide, ?_,
    by decide, bpfRecording, mem_singleton_self _, backed⟩
  exact found

/-- The one annotation of the pod is tracked. -/
theorem bpf_pod_tracked :
    Tracks .bpf (reconcile selectsAll listing .empty "pod".toList (some (pendingPod bpfAnnotations))) "pod".toList
      bpfProfile ↔ Entitled selectsAll [bpfRecording] (pendingPod bpfAnnotations) .bpf bpfProfile := by
  have noLogs : ∀ key value, ¬Traces (pendingPod bpfAnnotations) .logs key value := by
    rintro key value ⟨found, kind, isKind, starts⟩
    rw [(lookup_bpfAnnotations.mp found).1] at starts
    have none : ∀ kind ∈ annotationKinds .logs, ¬kind.1 <+: "io.containers.trace-bpf/web".toList := by decide
    exact none kind isKind starts
  refine (tracked_iff_entitled rfl rfl (Or.inl rfl) rfl).mpr ⟨?_, fun _ _ => noLogs, ?_⟩ .bpf bpfProfile
  · rintro _ _ _ recorder key value ⟨found, _⟩
    rw [(lookup_bpfAnnotations.mp found).2]
    decide
  · rintro _ recorder _ ⟨kind, name⟩ ⟨start, rest, _, isKind, found, _⟩
    obtain ⟨key, rfl⟩ := lookup_bpfAnnotations.mp found
    cases recorder with
    | logs => exact absurd ⟨found, (start, kind), isKind, prefix_append start rest⟩ (noLogs _ _)
    | bpf =>
      have only : ∀ other ∈ annotationKinds .bpf, other.1 <+: "io.containers.trace-bpf/web".toList →
          other.2 = .seccompProfile := by
        decide
      have seccomp : kind = .seccompProfile := only _ isKind ⟨rest, key⟩
      rw [seccomp]
      exact entitled_bpfProfile (lookup_bpfAnnotations.mpr ⟨rfl, rfl⟩)

/-- A second annotation, which no recording asks for, and which is one for the log enricher. -/
def disturbedAnnotations : SortedMap Str Str :=
  bpfAnnotations.insert "io.containers.trace-logs/web".toList "none".toList

/-- The profile of the first annotation is no longer tracked. -/
theorem log_annotation_suppresses_bpf :
    Entitled selectsAll [bpfRecording] (pendingPod disturbedAnnotations) .bpf bpfProfile ∧
      ¬Tracks .bpf (reconcile selectsAll listing .empty "pod".toList (some (pendingPod disturbedAnnotations)))
        "pod".toList bpfProfile := by
  constructor
  · apply entitled_bpfProfile
    rw [disturbedAnnotations, SortedMap.lookup_insert_ne _ _ (by decide)]
    exact lookup_bpfAnnotations.mpr ⟨rfl, rfl⟩
  · intro tracked
    obtain ⟨_, chosen, _⟩ := (tracks_reconcile rfl rfl (Or.inl rfl) rfl).mp tracked
    refine chosen "io.containers.trace-logs/web".toList "none".toList ⟨?_, _, mem_cons_self, by decide⟩
    exact SortedMap.lookup_insert_self _ _ _

end pods

end SecurityProfiles.Tracking
