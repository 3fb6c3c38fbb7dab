import SecurityProfiles.Binding.Apply

namespace SecurityProfiles.Tracking

open Binding (LabelSelector)

inductive RecordingKind where
  | seccompProfile
  | selinuxProfile
  | appArmorProfile
deriving DecidableEq

inductive ProfileRecorder where
  | logs
  | bpf
deriving DecidableEq

structure ProfileRecording where
  name : Str
  kind : RecordingKind
  recorder : ProfileRecorder
  mergeContainers : Bool
  podSelector : Option LabelSelector
  containers : Option (List Str)
  disableProfileAfterRecording : Bool
deriving DecidableEq

structure RecordingState where
  isPartial : Bool
  disable : Bool

def recordingStateOf (recording : ProfileRecording) : RecordingState :=
  ⟨recording.mergeContainers, recording.disableProfileAfterRecording⟩

structure ProfileToCollect where
  kind : RecordingKind
  name : Str
deriving DecidableEq

inductive PodPhase where
  | pending
  | running
  | succeeded
  | failed
  | unknown
deriving DecidableEq

structure Pod where
  generateName : Str
  uid : Nat
  labels : Binding.Labels
  annotations : SortedMap Str Str
  phase : PodPhase

structure PodToWatch where
  baseName : Str
  uid : Nat
  recorder : ProfileRecorder
  profiles : List ProfileToCollect
  recordings : SortedMap Str RecordingState

/-- The starts of the keys of annotations that ask for a recording. -/
def annotationKinds : ProfileRecorder → List (Str × RecordingKind)
  | .logs => [("io.containers.trace-logs/".toList, .seccompProfile),
    ("io.containers.trace-avcs/".toList, .selinuxProfile)]
  | .bpf => [("io.containers.trace-bpf/".toList, .seccompProfile),
      ("io.containers.trace-bpf-apparmor/".toList, .appArmorProfile)]

/-- `parseAnnotations` takes the profiles out of the annotations, in the order of their keys. One without a value is
an error. -/
def parseAnnotations (kinds : List (Str × RecordingKind)) :
    List (Sigma fun _ : Str => Str) → Option (List ProfileToCollect)
  | [] => some []
  | ⟨key, profile⟩ :: rest =>
    match kinds.find? fun kind => kind.1.isPrefixOf key with
    | none => parseAnnotations kinds rest
    | some kind =>
      if profile = [] then none
      else (parseAnnotations kinds rest).map (⟨kind.2, profile⟩ :: ·)

structure ParsedAnnotation where
  profileName : Str
  cntName : Str
  nonce : Str
  timestamp : Str
deriving DecidableEq

def parseProfileAnnotation (value : Str) : Option ParsedAnnotation :=
  match value.splitOn '_' with
  | [profileName, cntName, nonce, timestamp] => some ⟨profileName, cntName, nonce, timestamp⟩
  | _ => none

/-- `shouldRecordContainer` takes every container unless some are listed. -/
def shouldRecordContainer (containerName : Str) (recording : ProfileRecording) : Bool :=
  recording.containers.all (containerName ∈ ·)

/-- The answer of the label selectors of the API.  Those that are not valid have none. -/
abbrev Selects := Option LabelSelector → Binding.Labels → Option Bool

section authorize

variable (selects : Selects)

/-- The recording asks for this profile of the pod. -/
def authorizes (labels : Binding.Labels) (parsed : ParsedAnnotation) (kind : RecordingKind)
    (recorder : ProfileRecorder) (recording : ProfileRecording) : Bool :=
  recording.name = parsed.profileName && recording.kind = kind && recording.recorder = recorder &&
    (selects recording.podSelector labels).getD false && shouldRecordContainer parsed.cntName recording

def recordingAuthorizes (recordings : List ProfileRecording) (labels : Binding.Labels) (parsed : ParsedAnnotation)
    (kind : RecordingKind) (recorder : ProfileRecorder) : Option ProfileRecording :=
  recordings.find? (authorizes selects labels parsed kind recorder)

def backing (recordings : List ProfileRecording) (labels : Binding.Labels) (recorder : ProfileRecorder)
    (profile : ProfileToCollect) : Option ProfileRecording :=
  parseProfileAnnotation profile.name |>.bind fun parsed =>
    recordingAuthorizes selects recordings labels parsed profile.kind recorder

/-- `authorizedProfiles` drops the profiles that no recording asks for, and keeps the state of the recordings that
ask. -/
def authorizedProfiles (recordings : List ProfileRecording) (labels : Binding.Labels) (recorder : ProfileRecorder)
    (profiles : List ProfileToCollect) : List ProfileToCollect × SortedMap Str RecordingState :=
  (profiles.filter fun profile => (backing selects recordings labels recorder profile).isSome,
    (profiles.filterMap (backing selects recordings labels recorder)).foldl
      (fun states recording => states.insert recording.name (recordingStateOf recording)) .empty)

/-- The profiles that the annotations ask for: those of the log enricher if there are any, else those of the BPF
recorder. -/
def requestedProfiles (annotations : SortedMap Str Str) : Option (ProfileRecorder × List ProfileToCollect) := do
  let logProfiles ← parseAnnotations (annotationKinds .logs) annotations.entries
  let bpfProfiles ← parseAnnotations (annotationKinds .bpf) annotations.entries
  if logProfiles ≠ [] then some (.logs, logProfiles)
  else if bpfProfiles ≠ [] then some (.bpf, bpfProfiles)
  else none

/-- How the calls of a reconcile end: the recordings that were listed, whether the BPF recorder could be started,
and whether the profiles of a pod that is gone could be collected or given up. -/
structure Calls where
  recordings : Option (List ProfileRecording)
  startBpf : Bool
  collected : Bool

/-- What is recorded for a pod that is not tracked yet. -/
def trackPod (calls : Calls) (name : Str) (pod : Pod) : Option PodToWatch := do
  let (recorder, requested) ← requestedProfiles pod.annotations
  let recordings ← calls.recordings
  let (profiles, states) := authorizedProfiles selects recordings pod.labels recorder requested
  if profiles = [] then none
  else if recorder = .bpf && !calls.startBpf then none
  else
    some
      { baseName := if pod.generateName = [] then name else pod.generateName
        uid := pod.uid
        recorder
        profiles
        recordings := states }

abbrev PodsToWatch := SortedMap Str PodToWatch

def watchPod (calls : Calls) (watched : PodsToWatch) (name : Str) (pod : Pod) : PodsToWatch :=
  match trackPod selects calls name pod with
  | none => watched
  | some entry => watched.insert name entry

/-- `collectPod` forgets the pod unless it has to be tried again. -/
def collectPod (calls : Calls) (watched : PodsToWatch) (name : Str) : PodsToWatch :=
  if calls.collected then watched.erase name else watched

/-- `reconcile` tracks a pod that is about to run or runs, and collects one that ended or is gone. A pod that took
the place of another one is tracked after the profiles of that one were collected. -/
def reconcile (calls : Calls) (watched : PodsToWatch) (name : Str) : Option Pod → PodsToWatch
  | none => collectPod calls watched name
  | some pod =>
    match pod.phase with
    | .pending | .running =>
      match watched.lookup name with
      | none => watchPod selects calls watched name pod
      | some entry =>
        if entry.uid = pod.uid then watched
        else if calls.collected then watchPod selects calls (collectPod calls watched name) name pod
        else watched
    | .succeeded | .failed => collectPod calls watched name
    | .unknown => watched

end authorize

end SecurityProfiles.Tracking
