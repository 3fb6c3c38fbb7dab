import Mathlib.Data.List.Induction

namespace SecurityProfiles.Bpf

/-- The tables of a session, by the numbers of their entries. -/
structure SessionTables where
  containerKeys : List Nat
  containerIDToProfileMap : List Nat
  collectedProfiles : List Nat
  keyLimitWarned : List Nat
  recentExits : List Nat
  containersWithoutProfile : List Nat
  containersNotFound : List Nat
deriving DecidableEq

def SessionTables.empty : SessionTables := ⟨[], [], [], [], [], [], []⟩

structure Recorder where
  loaded : Bool
  seccomp : Bool
  appArmor : Bool
  startRequests : Nat
  isRecording : Bool
  recordingGeneration : Nat
  tables : SessionTables
  lastStart : Option Nat
  idleSince : Option Nat
deriving DecidableEq

/-- What can go wrong when the recording is started or stopped. -/
inductive RecordingError where
  | startBeforeLoad
  | clearPidMaps
  | updateIsRecording
  | seccomp
  | appArmor
deriving DecidableEq

namespace Recorder

/-- The seccomp recorder uses a base hook and has nothing to do. -/
def seccompStartRecording : Except RecordingError Unit := .ok ()

/-- Start the recording, with an operation that fails. A failure of the AppArmor recorder is only logged. -/
def startRecording (failing : Option RecordingError) (recorder : Recorder) :
    Except RecordingError Unit × Recorder :=
  if !recorder.loaded then (.error .startBeforeLoad, recorder)
  else if failing = some .clearPidMaps then (.error .clearPidMaps, recorder)
  else if failing = some .updateIsRecording then (.error .updateIsRecording, recorder)
  else
    let recorder := { recorder with isRecording := true }
    (if recorder.seccomp then seccompStartRecording else .ok (), recorder)

def stopRecording (failing : Option RecordingError) (recorder : Recorder) : Except RecordingError Unit × Recorder :=
  if failing = some .updateIsRecording then (.error .updateIsRecording, recorder)
  else
    let recorder := { recorder with isRecording := false }
    if recorder.seccomp ∧ failing = some .seccomp then (.error .seccomp, recorder)
    else if recorder.appArmor ∧ failing = some .appArmor then (.error .appArmor, recorder)
    else if failing = some .clearPidMaps then (.error .clearPidMaps, recorder)
    else (.ok (), { recorder with recordingGeneration := recorder.recordingGeneration + 1, tables := .empty })

def start (now : Nat) (failing : Option RecordingError) (recorder : Recorder) :
    Except RecordingError Unit × Recorder :=
  let recorder := { recorder with lastStart := some now }
  if recorder.startRequests = 0 then
    match recorder.startRecording failing with
    | (.error error, recorder) => (.error error, recorder)
    | (.ok (), recorder) => (.ok (), { recorder with startRequests := recorder.startRequests + 1 })
  else (.ok (), { recorder with startRequests := recorder.startRequests + 1 })

def stop (failing : Option RecordingError) (recorder : Recorder) : Except RecordingError Unit × Recorder :=
  if recorder.startRequests = 0 then (.ok (), recorder)
  else
    let recorder := { recorder with startRequests := recorder.startRequests - 1 }
    if recorder.startRequests = 0 then recorder.stopRecording failing else (.ok (), recorder)

def abandonedRecordingTimeout : Nat := 10 * 60
def uncollectedRecordingTimeout : Nat := 60 * 60

/-- How long the recording may go on without a pod that asks for it, in seconds. -/
def idleTimeout (recorder : Recorder) : Nat :=
  if recorder.tables.containerIDToProfileMap.length > 0 then uncollectedRecordingTimeout
    else abandonedRecordingTimeout

/-- Stop a recording that no pod on the node asked for in a while. The pods are known, and one of them asks for a
recording, as told. -/
def releaseAbandonedRecording (synced recorded : Bool) (now : Nat) (failing : Option RecordingError)
    (recorder : Recorder) : Recorder :=
  if !synced then recorder
  else if recorder.startRequests = 0 then { recorder with idleSince := none }
  else if recorded then { recorder with idleSince := none }
  else
    match recorder.idleSince with
    | none => { recorder with idleSince := some now }
    | some idleSince =>
      if recorder.lastStart.any (idleSince < ·) then { recorder with idleSince := some now }
      else if now - idleSince < recorder.idleTimeout then recorder
      else
        match { recorder with idleSince := none }.stopRecording failing with
        | (.error _, recorder) => recorder
        | (.ok (), recorder) => { recorder with startRequests := 0 }

/-- The recording is on exactly while there are requests, and the tables are empty while there are none. -/
structure Agrees (recorder : Recorder) : Prop where
  idle : recorder.startRequests = 0 → recorder.isRecording = false ∧ recorder.tables = .empty
  active : 0 < recorder.startRequests → recorder.isRecording = true

/-- The next request to stop ends the recording if nothing fails. -/
def Retriable (recorder : Recorder) : Prop :=
  (recorder.stop none).2.recordingGeneration = recorder.recordingGeneration + 1

def stopFails (failing : Option RecordingError) (recorder : Recorder) : Bool :=
  match failing with
  | some .updateIsRecording => true
  | some .clearPidMaps => true
  | some .seccomp => recorder.seccomp
  | some .appArmor => recorder.appArmor
  | _ => false

/-- The recording gets stopped as abandoned. -/
def abandoned (synced recorded : Bool) (now : Nat) (recorder : Recorder) : Bool :=
  synced && decide (recorder.startRequests ≠ 0) && !recorded && recorder.idleSince.any fun idleSince =>
    !recorder.lastStart.any (idleSince < ·) && decide (recorder.idleTimeout ≤ now - idleSince)

end Recorder

inductive Call where
  | start (now : Nat) (failing : Option RecordingError)
  | stop (failing : Option RecordingError)
  | releaseAbandonedRecording (synced recorded : Bool) (now : Nat) (failing : Option RecordingError)

namespace Call

def run : Call → Recorder → Except RecordingError Unit × Recorder
  | .start now failing, recorder => recorder.start now failing
  | .stop failing, recorder => recorder.stop failing
  | .releaseAbandonedRecording synced recorded now failing, recorder =>
    (.ok (), recorder.releaseAbandonedRecording synced recorded now failing)

/-- After the call, counter and recording agree, and a stop that failed can be tried again. -/
def Succeeds (call : Call) (recorder : Recorder) : Prop :=
  (call.run recorder).2.Agrees ∧
    ∀ failing error, call = .stop failing → (call.run recorder).1 = .error error → (call.run recorder).2.Retriable

/-- The last request is stopped without a failure, and stopping an abandoned recording does not fail after the
recording was switched off. -/
def StopsCleanly (recorder : Recorder) : Call → Prop
  | .start _ _ => True
  | .stop failing => recorder.startRequests = 1 → recorder.stopFails failing = false
  | .releaseAbandonedRecording synced recorded now failing => recorder.abandoned synced recorded now = true →
      recorder.stopFails failing = false ∨ failing = some .updateIsRecording

end Call

/-- A call, or what the handlers of events record meanwhile. -/
inductive Step where
  | call (request : Call)
  | record (tables : SessionTables)

def Step.run (recorder : Recorder) : Step → Recorder
  | .call request => (request.run recorder).2
  | .record tables => if recorder.isRecording then { recorder with tables := tables } else recorder

def runSteps (recorder : Recorder) (steps : List Step) : Recorder := steps.foldl Step.run recorder

section stopping

variable {recorder : Recorder} {failing : Option RecordingError}

namespace Recorder

theorem stopRecording_ok (works : recorder.stopFails failing = false) : recorder.stopRecording failing =
    (.ok (), { recorder with isRecording := false, recordingGeneration := recorder.recordingGeneration + 1,
                             tables := .empty }) := by
  rcases failing with _ | _ | _ | _ | _ | _ <;> simp_all [stopRecording, stopFails]

theorem stopRecording_updateIsRecording :
    recorder.stopRecording (some .updateIsRecording) = (.error .updateIsRecording, recorder) := rfl

theorem stopRecording_error (fails : recorder.stopFails failing = true)
    (switched : failing ≠ some .updateIsRecording) :
    ∃ error, recorder.stopRecording failing = (.error error, { recorder with isRecording := false }) := by
  rcases failing with _ | _ | _ | _ | _ | _ <;> simp_all [stopRecording, stopFails]

theorem release_of_abandoned {synced recorded : Bool} {now : Nat}
    (left : recorder.abandoned synced recorded now = true) :
    recorder.releaseAbandonedRecording synced recorded now failing =
      match { recorder with idleSince := none }.stopRecording failing with
      | (.error _, recorder) => recorder
      | (.ok (), recorder) => { recorder with startRequests := 0 } := by
  cases idle : recorder.idleSince with
  | none => simp [abandoned, idle] at left
  | some idleSince =>
    simp only [abandoned, idle, Bool.and_eq_true, Bool.not_eq_true', decide_eq_true_eq, Option.any_some] at left
    obtain ⟨⟨⟨isSynced, requested⟩, notRecorded⟩, earlier, expired⟩ := left
    simp only [releaseAbandonedRecording, isSynced, notRecorded, idle, earlier, if_neg requested,
      if_neg (Nat.not_lt.mpr expired), Bool.not_true, Bool.false_eq_true, if_false]

theorem release_of_not_abandoned {synced recorded : Bool} {now : Nat}
    (used : recorder.abandoned synced recorded now = false) :
    ∃ idleSince, recorder.releaseAbandonedRecording synced recorded now failing =
      { recorder with idleSince := idleSince } := by
  unfold releaseAbandonedRecording
  split
  · exact ⟨recorder.idleSince, rfl⟩
  next isSynced =>
  split
  · exact ⟨none, rfl⟩
  next requested =>
  split
  · exact ⟨none, rfl⟩
  next notRecorded =>
  split
  · exact ⟨some now, rfl⟩
  next idleSince idle =>
  split
  · exact ⟨some now, rfl⟩
  next earlier =>
  split
  · exact ⟨recorder.idleSince, rfl⟩
  next expired =>
  exfalso
  have left : recorder.abandoned synced recorded now = true := by
    simp only [abandoned, idle, Bool.and_eq_true, Bool.not_eq_true', decide_eq_true_eq, Option.any_some]
    exact ⟨⟨⟨by simpa using isSynced, requested⟩, by simpa using notRecorded⟩, by simpa using earlier,
      Nat.not_lt.mp expired⟩
  rw [left] at used
  cases used

end Recorder

end stopping

section calls

variable {recorder : Recorder}

open Recorder

theorem start_succeeds (agrees : recorder.Agrees) (now : Nat) (failing : Option RecordingError) :
    (Call.start now failing).Succeeds recorder := by
  refine ⟨?_, fun _ _ same => nomatch same⟩
  show (recorder.start now failing).2.Agrees
  by_cases idle : recorder.startRequests = 0
  · have off := agrees.idle idle
    simp only [start, startRecording, if_pos idle]
    by_cases unloaded : recorder.loaded = false
    · simp only [unloaded, Bool.not_false, if_true]
      exact ⟨fun _ => off, fun active => absurd idle (Nat.ne_of_gt active)⟩
    by_cases notCleared : failing = some .clearPidMaps
    · simp only [unloaded, notCleared, Bool.not_eq_true', if_true]
      exact ⟨fun _ => off, fun active => absurd idle (Nat.ne_of_gt active)⟩
    by_cases notUpdated : failing = some .updateIsRecording
    · simp only [unloaded, notUpdated, Bool.not_eq_true', if_true]
      exact ⟨fun _ => off, fun active => absurd idle (Nat.ne_of_gt active)⟩
    · simp only [unloaded, notCleared, notUpdated, Bool.not_eq_true', if_false, seccompStartRecording, ite_self]
      exact ⟨fun zero => (nomatch zero), fun _ => rfl⟩
  · simp only [start, if_neg idle]
    exact ⟨fun zero => (nomatch zero), fun _ => agrees.active (Nat.pos_of_ne_zero idle)⟩

theorem stop_of_last (last : recorder.startRequests = 1) (failing : Option RecordingError) :
    recorder.stop failing = { recorder with startRequests := 0 }.stopRecording failing := by
  simp [stop, last]

theorem not_retriable_of_idle (idle : recorder.startRequests = 0) : ¬recorder.Retriable := by
  simp [Retriable, stop, idle]

section

variable (agrees : recorder.Agrees)
include agrees

theorem stop_succeeds_iff (failing : Option RecordingError) :
    (Call.stop failing).Succeeds recorder ↔ Call.StopsCleanly recorder (.stop failing) := by
  by_cases last : recorder.startRequests = 1
  · have stopped := stop_of_last last failing
    cases fails : recorder.stopFails failing with
    | false =>
      have works : stopFails failing { recorder with startRequests := 0 } = false := fails
      rw [stopRecording_ok works] at stopped
      refine iff_of_true ⟨?_, ?_⟩ fun _ => fails
      · show (recorder.stop failing).2.Agrees
        rw [stopped]
        exact ⟨fun _ => ⟨rfl, rfl⟩, fun active => absurd rfl (Nat.ne_of_gt active)⟩
      · intro _ error _ failed
        have ended : (recorder.stop failing).1 = .error error := failed
        rw [stopped] at ended
        cases ended
    | true =>
      -- The counter is zero already, so that the next stop does nothing.
      have failed : ∃ error, (recorder.stop failing).1 = .error error ∧
          (recorder.stop failing).2.startRequests = 0 := by
        rw [stopped]
        by_cases switched : failing = some .updateIsRecording
        · rw [switched]
          exact ⟨_, rfl, rfl⟩
        · have fails' : stopFails failing { recorder with startRequests := 0 } = true := fails
          obtain ⟨error, same⟩ := stopRecording_error fails' switched
          rw [same]
          exact ⟨error, rfl, rfl⟩
      obtain ⟨error, isError, idle⟩ := failed
      refine iff_of_false (fun succeeds => ?_) fun clean => ?_
      · exact not_retriable_of_idle idle (succeeds.2 failing error rfl isError)
      · have works := clean last
        rw [fails] at works
        cases works
  · refine iff_of_true ?_ fun isLast => absurd isLast last
    by_cases idle : recorder.startRequests = 0
    · have same : recorder.stop failing = (.ok (), recorder) := by simp [stop, idle]
      exact ⟨by simpa [Call.run, same] using agrees, fun _ _ _ failed => by simp [Call.run, same] at failed⟩
    · have more : recorder.startRequests - 1 ≠ 0 := by omega
      have same : recorder.stop failing =
          (.ok (), { recorder with startRequests := recorder.startRequests - 1 }) := by
        simp [stop, idle, more]
      refine ⟨?_, fun _ _ _ failed => by simp [Call.run, same] at failed⟩
      show (recorder.stop failing).2.Agrees
      rw [same]
      exact ⟨fun zero => absurd zero more, fun _ => agrees.active (Nat.pos_of_ne_zero idle)⟩

theorem release_succeeds_iff (synced recorded : Bool) (now : Nat) (failing : Option RecordingError) :
    (Call.releaseAbandonedRecording synced recorded now failing).Succeeds recorder ↔
      Call.StopsCleanly recorder (.releaseAbandonedRecording synced recorded now failing) := by
  have agreement : (Call.releaseAbandonedRecording synced recorded now failing).Succeeds recorder ↔
      (recorder.releaseAbandonedRecording synced recorded now failing).Agrees :=
    ⟨fun succeeds => succeeds.1, fun agrees => ⟨agrees, fun _ _ same => nomatch same⟩⟩
  rw [agreement]
  cases left : recorder.abandoned synced recorded now with
  | false =>
    obtain ⟨idleSince, same⟩ := @release_of_not_abandoned recorder failing _ _ _ left
    rw [same]
    refine iff_of_true ⟨agrees.idle, agrees.active⟩ fun isLeft => ?_
    rw [left] at isLeft
    cases isLeft
  | true =>
    have requested : 0 < recorder.startRequests := by
      simp only [abandoned, Bool.and_eq_true, decide_eq_true_eq] at left
      exact Nat.pos_of_ne_zero left.1.1.2
    rw [release_of_abandoned left]
    cases fails : recorder.stopFails failing with
    | false =>
      have works : stopFails failing { recorder with idleSince := none } = false := fails
      rw [stopRecording_ok works]
      exact iff_of_true ⟨fun _ => ⟨rfl, rfl⟩, fun active => absurd rfl (Nat.ne_of_gt active)⟩ fun _ => Or.inl fails
    | true =>
      by_cases switched : failing = some .updateIsRecording
      · subst switched
        rw [stopRecording_updateIsRecording]
        exact iff_of_true ⟨agrees.idle, agrees.active⟩ fun _ => Or.inr rfl
      · have fails' : stopFails failing { recorder with idleSince := none } = true := fails
        obtain ⟨error, same⟩ := stopRecording_error fails' switched
        rw [same]
        refine iff_of_false (fun agrees' => ?_) fun clean => ?_
        · exact nomatch agrees'.active requested
        · rcases clean left with works | notSwitched
          · rw [fails] at works
            cases works
          · exact switched notSwitched

theorem succeeds_iff (call : Call) : call.Succeeds recorder ↔ call.StopsCleanly recorder := by
  cases call with
  | start now failing => exact iff_of_true (start_succeeds agrees now failing) trivial
  | stop failing => exact stop_succeeds_iff agrees failing
  | releaseAbandonedRecording synced recorded now failing =>
    exact release_succeeds_iff agrees synced recorded now failing

theorem agrees_record (tables : SessionTables) : (Step.run recorder (.record tables)).Agrees := by
  simp only [Step.run]
  split
  · next recording =>
      refine ⟨fun idle => ?_, agrees.active⟩
      rw [(agrees.idle idle).1] at recording
      cases recording
  · exact agrees

/-- Calls that stop cleanly keep counter and recording in agreement. -/
theorem agrees_runSteps (steps : List Step)
    (clean : ∀ before call after, steps = before ++ .call call :: after →
      call.StopsCleanly (runSteps recorder before)) :
    (runSteps recorder steps).Agrees := by
  induction steps using List.reverseRecOn with
  | nil => exact agrees
  | append_singleton steps step ih =>
    have earlier : (runSteps recorder steps).Agrees := by
      refine ih fun before call after same => clean before call (after ++ [step]) ?_
      rw [same, List.append_assoc, List.cons_append]
    rw [runSteps, List.foldl_append, ← runSteps]
    cases step with
    | record tables => exact agrees_record earlier tables
    | call request => exact ((succeeds_iff earlier request).mpr (clean steps request [] rfl)).1

end

end calls

/-- From a recorder in agreement, a call succeeds exactly if it stops cleanly, and so does each call of a run whose
calls stop cleanly. -/
theorem recording_agrees_iff (recorder : Recorder) (agrees : recorder.Agrees) :
    (∀ call : Call, call.Succeeds recorder ↔ call.StopsCleanly recorder) ∧
    ∀ steps : List Step,
      (∀ before call after, steps = before ++ .call call :: after → call.StopsCleanly (runSteps recorder before)) →
      (runSteps recorder steps).Agrees ∧
        ∀ before call after, steps = before ++ .call call :: after → call.Succeeds (runSteps recorder before) := by
  refine ⟨succeeds_iff agrees, fun steps clean => ⟨agrees_runSteps agrees steps clean, ?_⟩⟩
  intro before call after same
  refine (succeeds_iff (agrees_runSteps agrees before ?_) call).mpr (clean before call after same)
  intro before' call' after' same'
  refine clean before' call' (after' ++ .call call :: after) ?_
  rw [same, same', List.append_assoc, List.cons_append]

section runs

def loadedRecorder : Recorder where
  loaded := true
  seccomp := true
  appArmor := true
  startRequests := 0
  isRecording := false
  recordingGeneration := 0
  tables := .empty
  lastStart := none
  idleSince := none

/-- A recording that is started, records something and is stopped. -/
def plainSession : List Step :=
  [.call (.start 5 none), .record { SessionTables.empty with containerKeys := [1] }, .call (.stop none)]

theorem loadedRecorder_agrees : loadedRecorder.Agrees := ⟨fun _ => ⟨rfl, rfl⟩, fun active => nomatch active⟩

theorem plain_session_agrees : (runSteps loadedRecorder plainSession).Agrees ∧
    (runSteps loadedRecorder plainSession).recordingGeneration = 1 := by
  refine ⟨((recording_agrees_iff loadedRecorder loadedRecorder_agrees).2 plainSession ?_).1, by decide⟩
  intro before call after same
  have cleanly : call = .start 5 none ∨ call = .stop none := by
    have member : Step.call call ∈ plainSession := by
      rw [same]
      simp
    simpa [plainSession] using member
  rcases cleanly with rfl | rfl
  · trivial
  · exact fun _ => rfl

/-- The flag cannot be cleared; the counter is zero all the same, and to stop again has no effect. -/
theorem failed_stop_not_retried :
    let stopped := runSteps loadedRecorder [.call (.start 5 none), .call (.stop (some .updateIsRecording))]
    ((runSteps loadedRecorder [.call (.start 5 none)]).stop (some .updateIsRecording)).1 =
    .error .updateIsRecording ∧
      stopped.startRequests = 0 ∧ stopped.isRecording = true ∧ stopped.stop none = (.ok (), stopped) := by
  decide

end runs

end SecurityProfiles.Bpf
