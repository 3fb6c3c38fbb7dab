import SecurityProfiles.Tracking.Annotations

namespace SecurityProfiles.Tracking

open List

open Binding (Container SecurityContext)

/-- What makes the value of an annotation a fresh one: a random nonce and the time. -/
structure Stamp where
  nonce : Str
  timestamp : Str
  nonce_ne : nonce ≠ []
  timestamp_ne : timestamp ≠ []
  notMem_nonce : '_' ∉ nonce
  notMem_timestamp : '_' ∉ timestamp

section values

variable (recording : ProfileRecording)

def ctrAnnotationValue (ctrName : Str) (stamp : Stamp) : Str :=
  recording.name ++ '_' :: (ctrName ++ '_' :: (stamp.nonce ++ '_' :: stamp.timestamp))

/-- The start of the key, for the combinations of kind and recorder that there are. -/
def annotationStart : Option Str :=
  match recording.kind, recording.recorder with
  | .seccompProfile, .logs => some "io.containers.trace-logs/".toList
  | .seccompProfile, .bpf => some "io.containers.trace-bpf/".toList
  | .selinuxProfile, .logs => some "io.containers.trace-avcs/".toList
  | .selinuxProfile, .bpf => none
  | .appArmorProfile, .bpf => some "io.containers.trace-bpf-apparmor/".toList
  | .appArmorProfile, .logs => none

def ctrAnnotationKey (ctrName : Str) : Option Str := (annotationStart recording).map (· ++ ctrName)

def validateRecorderKindCombination : Bool :=
  match recording.kind with
  | .selinuxProfile => recording.recorder = .logs
  | .appArmorProfile => recording.recorder = .bpf
  | .seccompProfile => true

end values

/-- The value has the format of one for the recording and the container. -/
def isRecordingAnnotationValue (value recordingName ctrName : Str) : Bool :=
  match Text.cutPrefix (recordingName ++ '_' :: (ctrName ++ ['_'])) value with
  | none => false
  | some suffix =>
    match Text.cut '_' suffix with
    | none => false
    | some (nonce, timestamp) => nonce ≠ [] && timestamp ≠ [] && '_' ∉ timestamp

abbrev Annotations := SortedMap Str Str

section webhook

def logEnricherPath : Str := "operator/log-enricher-trace.json".toList

def selinuxPermissiveProfile : Str := "selinuxrecording.process".toList

/-- `updateSecurityContext` lets the log enricher see what the container does. -/
def updateSecurityContext (recording : ProfileRecording) (context : Option SecurityContext) :
    Option SecurityContext :=
  match recording.recorder, recording.kind with
  | .logs, .seccompProfile =>
    some { context.getD .empty with seccompProfile := some ⟨Binding.localhost, some logEnricherPath⟩ }
  | .logs, .selinuxProfile =>
    some { context.getD .empty with
      selinuxOptions :=
        some (Binding.setSelinuxType (context.getD .empty).selinuxOptions selinuxPermissiveProfile) }
  | _, _ => context

/-- Set an annotation, and tell whether that changed anything. A new pod keeps a value of the recording. -/
def setAnnotation (isCreate : Bool) (recording : ProfileRecording) (ctrName key value : Str)
    (annotations : Annotations) : Annotations × Bool :=
  match annotations.lookup key with
  | none => (annotations.insert key value, true)
  | some existing =>
    if existing = value || (isCreate && isRecordingAnnotationValue existing recording.name ctrName) then
      (annotations, false)
    else (annotations.insert key value, true)

/-- The annotation of one container. Without a valid combination of kind and recorder there is none. -/
def updateContainer (isCreate : Bool) (oldAnnotations : Annotations) (recording : ProfileRecording) (ctrName : Str)
    (stamp : Stamp) (annotations : Annotations) : Option (Annotations × Bool) :=
  match ctrAnnotationKey recording ctrName with
  | none => none
  | some key =>
    let value := ctrAnnotationValue recording ctrName stamp
    if isCreate then some <| setAnnotation isCreate recording ctrName key value annotations
    else
      match oldAnnotations.lookup key with
      | none => some (annotations, false)
      | some oldValue =>
        let value := if isRecordingAnnotationValue oldValue recording.name ctrName then oldValue else value
        some <| setAnnotation isCreate recording ctrName key value annotations

def updateContainers (isCreate : Bool) (oldAnnotations : Annotations) (recording : ProfileRecording)
    (stamps : Nat → Stamp) :
    Nat → List Str → Annotations × Bool → Option (Annotations × Bool)
  | _, [], state => some state
  | index, ctrName :: rest, (annotations, changed) =>
    match updateContainer isCreate oldAnnotations recording ctrName (stamps index) annotations with
    | none => none
    | some (annotations, changed') =>
      updateContainers isCreate oldAnnotations recording stamps (index + 1) rest (annotations, changed || changed')

/-- The names of the containers that are recorded. -/
def recordedContainers (pod : Binding.Pod) (recording : ProfileRecording) : List Str :=
  ((pod.initContainers ++ pod.containers).map (·.name)).filter (shouldRecordContainer · recording)

def setContexts (recording : ProfileRecording) (containers : List Container) : List Container :=
  containers.map fun ctr =>
    if shouldRecordContainer ctr.name recording then
      { ctr with securityContext := updateSecurityContext recording ctr.securityContext }
    else ctr

/-- `updatePod` applies the recording to the pod. Security contexts are set at the creation of the pod only. -/
def updatePod (isCreate : Bool) (oldAnnotations : Annotations) (recording : ProfileRecording) (stamps : Nat → Stamp)
    (pod : Binding.Pod) : Option (Binding.Pod × Bool) :=
  match updateContainers isCreate oldAnnotations recording stamps 0 (recordedContainers pod recording)
    (pod.annotations, false) with
  | none => none
  | some (annotations, changed) =>
    let pod := { pod with annotations := annotations }
    if isCreate then
      some ({ pod with
        initContainers := setContexts recording pod.initContainers
        containers := setContexts recording pod.containers }, changed)
    else some (pod, changed)

variable (selects : Selects)

/-- The recording is valid and selects pods with the labels. -/
def appliesTo (labels : Binding.Labels) (recording : ProfileRecording) : Bool :=
  validateRecorderKindCombination recording && (selects recording.podSelector labels).getD false

/-- The recordings are applied one after the other. -/
def updateAll (isCreate : Bool) (oldAnnotations : Annotations) (labels : Binding.Labels)
    (stamps : Nat → Nat → Stamp) :
    Nat → List ProfileRecording → Binding.Pod × Bool → Option (Binding.Pod × Bool)
  | _, [], state => some state
  | index, recording :: rest, (pod, changed) =>
    if appliesTo selects labels recording then
      match updatePod isCreate oldAnnotations recording (stamps index) pod with
      | none => none
      | some (pod, changed') =>
        updateAll isCreate oldAnnotations labels stamps (index + 1) rest (pod, changed || changed')
    else updateAll isCreate oldAnnotations labels stamps (index + 1) rest (pod, changed)

inductive Response where
  | errored
  | allowed
  | patched (pod : Binding.Pod)

def Response.admitted (pod : Binding.Pod) : Response → Option Binding.Pod
  | .errored => none
  | .allowed => some pod
  | .patched changed => some changed

/-- A request with the recordings of its namespace, unless they could not be listed, and pods, unless they could not
be decoded. There may be no old pod. -/
structure Request where
  isCreate : Bool
  recordings : Option (List ProfileRecording)
  pod : Option Binding.Pod
  oldPod : Option (Option Binding.Pod)

/-- The annotations of the old pod, which are read for an update only. -/
def Request.oldAnnotations (request : Request) : Option Annotations :=
  if request.isCreate then some .empty
  else
    match request.oldPod with
    | none => some .empty
    | some none => none
    | some (some oldPod) => some oldPod.annotations

def handle (stamps : Nat → Nat → Stamp) (request : Request) : Response :=
  match request.recordings, request.pod with
  | none, _ => .errored
  | some _, none => .errored
  | some recordings, some pod =>
    if pod.isWindows then .allowed
    else
      match request.oldAnnotations with
      | none => .errored
      | some oldAnnotations =>
        match updateAll selects request.isCreate oldAnnotations pod.labels stamps 0 recordings (pod, false) with
        | none => .errored
        | some (changedPod, changed) => if changed then .patched changedPod else .allowed

end webhook

section keys

variable {recording recording' : ProfileRecording} {ctrName ctrName' key : Str}

theorem cut_key (isKey : ctrAnnotationKey recording ctrName = some key) :
    ∃ before, annotationStart recording = some (before ++ ['/']) ∧ Text.cut '/' key = some (before, ctrName) := by
  obtain ⟨start, isStart, rfl⟩ := Option.map_eq_some_iff.mp isKey
  have form : ∃ before, start = before ++ ['/'] ∧ '/' ∉ before := by
    unfold annotationStart at isStart
    split at isStart
    · exact ⟨"io.containers.trace-logs".toList, (Option.some.inj isStart).symm.trans (by decide), by decide⟩
    · exact ⟨"io.containers.trace-bpf".toList, (Option.some.inj isStart).symm.trans (by decide), by decide⟩
    · exact ⟨"io.containers.trace-avcs".toList, (Option.some.inj isStart).symm.trans (by decide), by decide⟩
    · cases isStart
    · exact ⟨"io.containers.trace-bpf-apparmor".toList, (Option.some.inj isStart).symm.trans (by decide), by decide⟩
    · cases isStart
  obtain ⟨before, rfl, absent⟩ := form
  refine ⟨before, isStart, ?_⟩
  rw [append_assoc]
  exact Text.cut_append absent ctrName

theorem ctrAnnotationKey_injective (isKey : ctrAnnotationKey recording ctrName = some key)
    (isKey' : ctrAnnotationKey recording' ctrName' = some key) : ctrName = ctrName' := by
  obtain ⟨before, _, isCut⟩ := cut_key isKey
  obtain ⟨before', _, isCut'⟩ := cut_key isKey'
  exact (Prod.mk.inj (Option.some.inj (isCut.symm.trans isCut'))).2

theorem isRecordingAnnotationValue_fresh (recording : ProfileRecording) (ctrName : Str) (stamp : Stamp) :
    isRecordingAnnotationValue (ctrAnnotationValue recording ctrName stamp) recording.name ctrName = true := by
  have shape : ctrAnnotationValue recording ctrName stamp =
      (recording.name ++ '_' :: (ctrName ++ ['_'])) ++ (stamp.nonce ++ '_' :: stamp.timestamp) := by
    simp [ctrAnnotationValue]
  rw [isRecordingAnnotationValue, shape, Text.cutPrefix_append]
  simp [Text.cut_append stamp.notMem_nonce, stamp.nonce_ne, stamp.timestamp_ne, stamp.notMem_timestamp]

end keys

section update

variable {old annotations after : Annotations} {recording : ProfileRecording} {ctrName key value : Str}
  {stamp : Stamp} {changed : Bool}

theorem setAnnotation_update : setAnnotation false recording ctrName key value annotations =
    (annotations.insert key value, decide (annotations.lookup key ≠ some value)) := by
  unfold setAnnotation
  split
  · next missing => simp [missing]
  · next existing found =>
      simp only [Bool.false_and, Bool.or_false, decide_eq_true_eq]
      split
      · next same =>
          subst same
          rw [SortedMap.insert_eq_self found]
          simp [found]
      · next other => simp [found, other]

/-- The annotation of an update: nothing is written under a key that the old pod lacks, and its value is written
again exactly if it is one of the recording. -/
theorem updateContainer_update
    (updated : updateContainer false old recording ctrName stamp annotations = some (after, changed)) :
    ∃ written, ctrAnnotationKey recording ctrName = some written ∧ (changed = false → after = annotations) ∧
      (old.lookup written = none ∧ after = annotations ∨
        ∃ oldValue value, old.lookup written = some oldValue ∧ after = annotations.insert written value ∧
          (value = oldValue ↔ isRecordingAnnotationValue oldValue recording.name ctrName = true)) := by
  unfold updateContainer at updated
  cases isKey : ctrAnnotationKey recording ctrName with
  | none => simp [isKey] at updated
  | some written =>
    simp only [isKey, Bool.false_eq_true, if_false, setAnnotation_update] at updated
    refine ⟨written, rfl, ?_⟩
    cases had : old.lookup written with
    | none =>
      simp only [had] at updated
      cases updated
      exact ⟨fun _ => rfl, Or.inl ⟨rfl, rfl⟩⟩
    | some oldValue =>
      simp only [had] at updated
      cases updated
      refine ⟨fun same => SortedMap.insert_eq_self (by simpa using same), Or.inr ⟨oldValue, _, rfl, rfl, ?_⟩⟩
      by_cases own : isRecordingAnnotationValue oldValue recording.name ctrName = true
      · simp [own]
      · rw [if_neg own]
        refine iff_of_false (fun same => own ?_) own
        rw [← same]
        exact isRecordingAnnotationValue_fresh recording ctrName stamp

theorem lookup_updateContainer {oldValue : Str} (had : old.lookup key = some oldValue)
    (updated : updateContainer false old recording ctrName stamp annotations = some (after, changed)) :
    (ctrAnnotationKey recording ctrName = some key →
      (after.lookup key = some oldValue ↔ isRecordingAnnotationValue oldValue recording.name ctrName = true)) ∧
    (ctrAnnotationKey recording ctrName ≠ some key → after.lookup key = annotations.lookup key) := by
  obtain ⟨written, isKey, _, ⟨missing, rfl⟩ | ⟨oldValue', value, had', rfl, own⟩⟩ := updateContainer_update updated
  · refine ⟨fun same => ?_, fun _ => rfl⟩
    obtain rfl : written = key := Option.some.inj (isKey.symm.trans same)
    rw [had] at missing
    cases missing
  · refine ⟨fun same => ?_, fun different => SortedMap.lookup_insert_ne _ _ fun same =>
      different (by rw [isKey, same])⟩
    obtain rfl : written = key := Option.some.inj (isKey.symm.trans same)
    obtain rfl : oldValue = oldValue' := Option.some.inj (had.symm.trans had')
    rw [SortedMap.lookup_insert_self, Option.some.injEq, own]

/-- The annotations differ from those before only under keys of the old pod, and it is told if they differ. -/
structure Follows (old before : Annotations) (now : Annotations × Bool) : Prop where
  missing : ∀ key, old.lookup key = none → now.1.lookup key = before.lookup key
  unchanged : now.2 = false → now.1 = before

theorem Follows.trans {before : Annotations} {changed' : Bool} (follows : Follows old before (annotations, changed))
    (next : Follows old annotations (after, changed')) : Follows old before (after, changed || changed') where
  missing key missing := (next.missing key missing).trans (follows.missing key missing)
  unchanged same :=
    (next.unchanged (Bool.or_eq_false_iff.mp same).2).trans (follows.unchanged (Bool.or_eq_false_iff.mp same).1)

theorem follows_updateContainer
    (updated : updateContainer false old recording ctrName stamp annotations = some (after, changed)) :
    Follows old annotations (after, changed) := by
  obtain ⟨written, _, unchanged, write⟩ := updateContainer_update updated
  refine ⟨fun key missing => ?_, unchanged⟩
  rcases write with ⟨_, rfl⟩ | ⟨oldValue, value, had, rfl, _⟩
  · rfl
  · refine SortedMap.lookup_insert_ne _ _ fun same => ?_
    rw [same, had] at missing
    cases missing

end update

section updates

variable {old : Annotations} {recording : ProfileRecording} {stamps : Nat → Stamp} {index : Nat}
  {names : List Str} {state after : Annotations × Bool}

theorem follows_updateContainers {before : Annotations}
    (updated : updateContainers false old recording stamps index names state = some after)
    (follows : Follows old before state) : Follows old before after := by
  induction names generalizing index state with
  | nil =>
    cases updated
    exact follows
  | cons ctrName rest ih =>
    obtain ⟨annotations, changed⟩ := state
    simp only [updateContainers] at updated
    split at updated
    · cases updated
    · next isStep => exact ih updated (follows.trans (follows_updateContainer isStep))

/-- A recording that writes the annotation of a container keeps the old value if that is one of its own. -/
theorem lookup_updateContainers {recording₀ : ProfileRecording} {ctrName key oldValue : Str}
    (isKey : ctrAnnotationKey recording₀ ctrName = some key) (had : old.lookup key = some oldValue)
    (updated : updateContainers false old recording stamps index names state = some after) :
    (ctrName ∈ names → ctrAnnotationKey recording ctrName = some key →
      (after.1.lookup key = some oldValue ↔ isRecordingAnnotationValue oldValue recording.name ctrName = true)) ∧
    (¬(ctrName ∈ names ∧ ctrAnnotationKey recording ctrName = some key) →
      after.1.lookup key = state.1.lookup key) := by
  induction names generalizing index state with
  | nil =>
    cases updated
    exact ⟨fun member => (nomatch member), fun _ => rfl⟩
  | cons first rest ih =>
    obtain ⟨annotations, changed⟩ := state
    simp only [updateContainers] at updated
    split at updated
    · cases updated
    next annotations' changed' isStep =>
    obtain ⟨writes, keeps⟩ := lookup_updateContainer had isStep
    obtain ⟨laterWrites, laterKeeps⟩ := ih updated
    refine ⟨fun member sameKey => ?_, fun other => ?_⟩
    · by_cases later : ctrName ∈ rest
      · exact laterWrites later sameKey
      · obtain rfl := (mem_cons.mp member).resolve_right later
        rw [laterKeeps fun both => later both.1]
        exact writes sameKey
    · rw [laterKeeps fun both => other ⟨mem_cons_of_mem _ both.1, both.2⟩]
      refine keeps fun sameKey => other ?_
      obtain rfl := ctrAnnotationKey_injective isKey sameKey
      exact ⟨mem_cons_self, sameKey⟩

end updates

section recordings

variable {selects : Selects} {old : Annotations} {labels : Binding.Labels} {stamps : Nat → Nat → Stamp}
  {index : Nat} {recordings : List ProfileRecording} {state after : Binding.Pod × Bool}

def containerNames (pod : Binding.Pod) : List Str := (pod.initContainers ++ pod.containers).map (·.name)

theorem updatePod_update {recording : ProfileRecording} {stamps : Nat → Stamp} {pod : Binding.Pod}
    (updated : updatePod false old recording stamps pod = some after) :
    ∃ annotations changed, after = ({ pod with annotations := annotations }, changed) ∧
      updateContainers false old recording stamps 0 (recordedContainers pod recording) (pod.annotations, false) =
        some (annotations, changed) := by
  unfold updatePod at updated
  split at updated
  · cases updated
  · next annotations changed isUpdate =>
      simp only [Bool.false_eq_true, if_false] at updated
      exact ⟨annotations, changed, (Option.some.inj updated).symm, isUpdate⟩

/-- Only the annotations of the pod change. -/
theorem follows_updateAll {pod : Binding.Pod} {annotations : Annotations} {changed : Bool}
    (updated : updateAll selects false old labels stamps index recordings
      ({ pod with annotations := annotations }, changed) = some after)
    (follows : Follows old pod.annotations (annotations, changed)) :
    ∃ annotations, after.1 = { pod with annotations := annotations } ∧
      Follows old pod.annotations (annotations, after.2) := by
  induction recordings generalizing index annotations changed with
  | nil =>
    cases updated
    exact ⟨annotations, rfl, follows⟩
  | cons recording rest ih =>
    simp only [updateAll] at updated
    split at updated
    · split at updated
      · cases updated
      · next isStep =>
          obtain ⟨_, _, isPod, isUpdate⟩ := updatePod_update isStep
          cases isPod
          exact ih updated (follows.trans (follows_updateContainers isUpdate ⟨fun _ _ => rfl, fun _ => rfl⟩))
    · exact ih updated follows

/-- The recordings that write the annotation of the container. -/
def writers (selects : Selects) (labels : Binding.Labels) (ctrName key : Str) (recordings : List ProfileRecording) :
    List ProfileRecording :=
  recordings.filter fun recording => appliesTo selects labels recording &&
  shouldRecordContainer ctrName recording && ctrAnnotationKey recording ctrName = some key

/-- The last one of the recordings that write the annotation decides whether the old value is kept. Without any the
annotation is left as it is. -/
theorem lookup_updateAll {recording₀ : ProfileRecording} {ctrName key oldValue : Str}
    (isKey : ctrAnnotationKey recording₀ ctrName = some key) (had : old.lookup key = some oldValue)
    (isContainer : ctrName ∈ containerNames state.1)
    (updated : updateAll selects false old labels stamps index recordings state = some after) :
    (∀ last, (writers selects labels ctrName key recordings).getLast? = some last →
      (after.1.annotations.lookup key = some oldValue ↔
        isRecordingAnnotationValue oldValue last.name ctrName = true)) ∧
    ((writers selects labels ctrName key recordings).getLast? = none →
      after.1.annotations.lookup key = state.1.annotations.lookup key) := by
  induction recordings generalizing index state with
  | nil =>
    cases updated
    exact ⟨fun _ none' => (nomatch none'), fun _ => rfl⟩
  | cons recording rest ih =>
    obtain ⟨pod, changed⟩ := state
    simp only [updateAll] at updated
    split at updated
    · next applies =>
        split at updated
        · cases updated
        next pod' changed' isStep =>
        obtain ⟨annotations, _, isPod, isUpdate⟩ := updatePod_update isStep
        obtain ⟨rfl, rfl⟩ := Prod.mk.inj isPod
        have isContainer' : ctrName ∈ containerNames { pod with annotations := annotations } := isContainer
        obtain ⟨laterDecides, laterKeeps⟩ := ih isContainer' updated
        obtain ⟨writes, keeps⟩ := lookup_updateContainers isKey had isUpdate
        have recorded : ctrName ∈ recordedContainers pod recording ↔
            shouldRecordContainer ctrName recording = true :=
          mem_filter.trans (and_iff_right isContainer)
        rw [recorded] at writes keeps
        by_cases isWriter : shouldRecordContainer ctrName recording = true ∧
          ctrAnnotationKey recording ctrName = some key
        · have found : writers selects labels ctrName key (recording :: rest) =
              recording :: writers selects labels ctrName key rest := by
            simp [writers, applies, isWriter]
          rw [found, getLast?_cons]
          refine ⟨fun last isLast => ?_, fun none' => nomatch none'⟩
          cases later : (writers selects labels ctrName key rest).getLast? with
          | none =>
            rw [later] at isLast
            obtain rfl : recording = last := Option.some.inj isLast
            rw [laterKeeps later]
            exact writes isWriter.1 isWriter.2
          | some other =>
            rw [later] at isLast
            obtain rfl : other = last := Option.some.inj isLast
            exact laterDecides other later
        · have same : writers selects labels ctrName key (recording :: rest) =
              writers selects labels ctrName key rest := by
            exact filter_cons_of_neg (by simpa [applies] using isWriter)
          rw [same]
          exact ⟨laterDecides, fun none' => (laterKeeps none').trans (keeps isWriter)⟩
    · next skipped =>
        have same : writers selects labels ctrName key (recording :: rest) =
            writers selects labels ctrName key rest := by
          simp [writers, skipped]
        rw [same]
        exact ih isContainer updated

end recordings

theorem admitted_of_update {selects : Selects} {stamps : Nat → Nat → Stamp} {recordings : List ProfileRecording}
    {pod oldPod admitted : Binding.Pod} (notWindows : ¬pod.isWindows = true)
    (isAdmitted : (handle selects stamps ⟨false, some recordings, some pod, some (some oldPod)⟩).admitted pod =
      some admitted) :
    ∃ changed, updateAll selects false oldPod.annotations pod.labels stamps 0 recordings (pod, false) =
      some (admitted, changed) := by
  simp only [handle, if_neg notWindows, Request.oldAnnotations, Bool.false_eq_true, if_false] at isAdmitted
  split at isAdmitted
  · cases isAdmitted
  next changedPod changed updated =>
  cases changed with
  | true =>
    cases isAdmitted
    exact ⟨true, updated⟩
  | false =>
    cases isAdmitted
    obtain ⟨annotations, rfl, follows⟩ := follows_updateAll updated ⟨fun _ _ => rfl, fun _ => rfl⟩
    have same : annotations = pod.annotations := follows.unchanged rfl
    exact ⟨false, updated.trans (by rw [same])⟩

/-- The value of the old pod is left to the pod: the webhook does not skip it, and the last of the recordings that
write the annotation is one that the value is of. -/
def LeftTo (selects : Selects) (recordings : List ProfileRecording) (pod : Binding.Pod) (ctrName key value : Str) :
    Prop :=
  if pod.isWindows then pod.annotations.lookup key = some value
  else ∀ last, (writers selects pod.labels ctrName key recordings).getLast? = some last →
    isRecordingAnnotationValue value last.name ctrName = true

/-- An update keeps the annotation of a recording exactly if the value is left to the pod, and adds no annotations
that the old pod does not have. -/
theorem update_keeps_annotations (selects : Selects) (stamps : Nat → Nat → Stamp)
    (recordings : List ProfileRecording) (pod oldPod admitted : Binding.Pod)
    (isAdmitted : (handle selects stamps ⟨false, some recordings, some pod, some (some oldPod)⟩).admitted pod =
      some admitted) :
    (∀ recording ∈ recordings, ∀ ctrName ∈ containerNames pod, ∀ key value,
      appliesTo selects pod.labels recording = true → shouldRecordContainer ctrName recording = true →
      ctrAnnotationKey recording ctrName = some key → oldPod.annotations.lookup key = some value →
      isRecordingAnnotationValue value recording.name ctrName = true →
      (admitted.annotations.lookup key = some value ↔ LeftTo selects recordings pod ctrName key value)) ∧
    ∀ key, admitted.annotations.lookup key ≠ none →
      pod.annotations.lookup key ≠ none ∨ oldPod.annotations.lookup key ≠ none := by
  by_cases windows : pod.isWindows = true
  · have same : admitted = pod := by
      simp only [handle, if_pos windows] at isAdmitted
      exact (Option.some.inj isAdmitted).symm
    subst same
    refine ⟨fun _ _ _ _ _ _ _ _ _ _ _ => ?_, fun _ has => Or.inl has⟩
    rw [LeftTo, if_pos windows]
  obtain ⟨changed, updated⟩ := admitted_of_update windows isAdmitted
  refine ⟨fun recording member ctrName isContainer key value applies covers isKey had own => ?_, fun key has => ?_⟩
  · have decides := (lookup_updateAll isKey had isContainer updated).1
    rw [LeftTo, if_neg windows]
    have isWriter : recording ∈ writers selects pod.labels ctrName key recordings :=
      mem_filter.mpr ⟨member, by simp [applies, covers, isKey]⟩
    obtain ⟨last, isLast⟩ := Option.ne_none_iff_exists'.mp
      (getLast?_eq_none_iff.not.mpr (ne_nil_of_mem isWriter))
    refine (decides last isLast).trans ⟨fun ofLast last' isLast' => ?_, fun ofAll => ofAll last isLast⟩
    rwa [Option.some.inj (isLast'.symm.trans isLast)]
  · by_cases missing : oldPod.annotations.lookup key = none
    · obtain ⟨annotations, rfl, follows⟩ := follows_updateAll updated ⟨fun _ _ => rfl, fun _ => rfl⟩
      exact Or.inl (follows.missing key missing ▸ has)
    · exact Or.inr missing

section pods

def firstStamp : Stamp := ⟨"x".toList, "1".toList, by decide, by decide, by decide, by decide⟩

def nextStamp : Stamp := ⟨"y".toList, "2".toList, by decide, by decide, by decide, by decide⟩

def webRecording : ProfileRecording := ⟨"web".toList, .seccompProfile, .logs, false, none, none, false⟩

def laterRecording : ProfileRecording := { webRecording with name := "later".toList }

/-- A pod that the first recording was started for. -/
def recordedPod : Binding.Pod where
  generateName := []
  labels := []
  annotations := SortedMap.empty.insert "io.containers.trace-logs/app".toList
    (ctrAnnotationValue webRecording "app".toList firstStamp)
  isWindows := false
  securityContext := none
  initContainers := []
  containers := [⟨"app".toList, [], none, []⟩]
  ephemeralContainers := []
  others := []

def strippedPod : Binding.Pod := { recordedPod with annotations := .empty }

def selectsEvery : Selects := fun _ _ => some true

def admittedOf (recordings : List ProfileRecording) : Option Binding.Pod :=
  (handle selectsEvery (fun _ _ => nextStamp)
    ⟨false, some recordings, some strippedPod, some (some recordedPod)⟩).admitted strippedPod

theorem recordedPod_kept : admittedOf [webRecording] = some recordedPod ∧
    recordedPod.annotations.lookup "io.containers.trace-logs/app".toList =
      some (ctrAnnotationValue webRecording "app".toList firstStamp) := by
  have isAdmitted : admittedOf [webRecording] = some recordedPod := by decide
  refine ⟨isAdmitted, ((update_keeps_annotations _ _ _ _ _ _ isAdmitted).1 webRecording mem_cons_self "app".toList
    (by decide) _ _ rfl (by decide) rfl (by decide) (by decide)).mpr ?_⟩
  intro last isLast
  obtain rfl : webRecording = last := Option.some.inj ((by decide : _ = some webRecording).symm.trans isLast)
  decide

/-- A recording that was created later and selects the pod as well renames the profile that is recorded. -/
theorem recordedPod_renamed : (admittedOf [webRecording, laterRecording]).map
    (·.annotations.lookup "io.containers.trace-logs/app".toList) =
      some (some (ctrAnnotationValue laterRecording "app".toList nextStamp)) ∧
    isRecordingAnnotationValue (ctrAnnotationValue webRecording "app".toList firstStamp) webRecording.name
      "app".toList = true ∧
    ctrAnnotationValue laterRecording "app".toList nextStamp ≠
      ctrAnnotationValue webRecording "app".toList firstStamp := by
  refine ⟨by decide, by decide, by decide⟩

end pods

end SecurityProfiles.Tracking
