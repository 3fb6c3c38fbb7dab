import SecurityProfiles.Bpf.Containers

namespace SecurityProfiles.Bpf

open Threads LookupState List

section lives

variable {history : History} {process other : Process} {pid time later between : Nat}

theorem Process.holds_iff : process.holds pid time = true ↔
    process.pid = pid ∧ process.start ≤ time ∧ ∀ exit, process.exit = some exit → time < exit := by
  unfold Process.holds
  cases process.exit with
  | none => simp
  | some exit => simp [and_assoc]

theorem Process.holds_between (first : process.holds pid time = true) (last : process.holds pid later = true)
    (after : time ≤ between) (before : between ≤ later) : process.holds pid between = true := by
  obtain ⟨isPid, started, _⟩ := holds_iff.mp first
  obtain ⟨_, _, running⟩ := holds_iff.mp last
  refine holds_iff.mpr ⟨isPid, by omega, fun exit isExit => ?_⟩
  have notGone := running exit isExit
  omega

/-- A process that has the number later cannot have given it back before. -/
theorem Process.not_before (first : process.holds pid time = true) (last : other.holds pid later = true)
    (order : time ≤ later) : ¬other.Before process := by
  rintro ⟨exit, isExit, free⟩
  obtain ⟨_, started, _⟩ := holds_iff.mp first
  obtain ⟨_, _, running⟩ := holds_iff.mp last
  have notGone := running exit isExit
  omega

section

variable (isProcess : process ∈ history.processes)
include isProcess

section

variable (isOther : other ∈ history.processes)
include isOther

theorem History.same_holder (first : process.holds pid time = true) (second : other.holds pid time = true) :
    process = other := by
  have samePid : process.pid = other.pid :=
    (Process.holds_iff.mp first).1.trans (Process.holds_iff.mp second).1.symm
  rcases history.apart process isProcess other isOther samePid with same | before | before
  · exact same
  · exact absurd before (Process.not_before second first (Nat.le_refl _))
  · exact absurd before (Process.not_before first second (Nat.le_refl _))

/-- The start time, which is rounded to a clock tick, tells that the process has had its number all the time. -/
theorem History.same_of_started (first : process.holds pid time = true) (last : other.holds pid later = true)
    (order : time ≤ later) (started : other.startTicks * tick ≤ time) : process = other := by
  have samePid : process.pid = other.pid :=
    (Process.holds_iff.mp first).1.trans (Process.holds_iff.mp last).1.symm
  rcases history.apart process isProcess other isOther samePid with same | ⟨exit, isExit, free⟩ | before
  · exact same
  · have notGone := (Process.holds_iff.mp first).2.2 exit isExit
    unfold Process.startTicks tick at started
    unfold tick at free
    omega
  · exact absurd before (Process.not_before first last order)

/-- The number and the start time tell a process. -/
theorem History.same_of_startTicks (samePid : process.pid = other.pid)
    (sameTicks : process.startTicks = other.startTicks) : process = other := by
  have apart : ∀ first second : Process, first.Before second → first.startTicks ≠ second.startTicks := by
    rintro first second ⟨exit, isExit, free⟩ same
    have lived := first.ordered exit isExit
    unfold Process.startTicks tick at same
    unfold tick at free
    omega
  rcases history.apart process isProcess other isOther samePid with same | before | before
  · exact same
  · exact absurd sameTicks (apart _ _ before)
  · exact absurd sameTicks.symm (apart _ _ before)

end

end

theorem History.of_holder (found : history.holder pid time = some process) :
    process ∈ history.processes ∧ process.holds pid time = true := by
  unfold History.holder at found
  have isHolder := find?_some found
  exact ⟨mem_of_find?_eq_some found, isHolder⟩

end lives

section stat

variable {process other : Process}

/-- The start time is found whatever the command is. -/
theorem getProcessStartTimeTicks_stat :
    getProcessStartTimeTicks process.stat = some (Text.itoa process.startTicks) := by
  have words : ∀ word ∈ process.before ++ Text.itoa process.startTicks :: process.after,
      Text.IsWord word ∧ ')' ∉ word := by
    intro word member
    rcases mem_append.mp member with isBefore | isRest
    · exact process.words word (mem_append_left _ isBefore)
    rcases mem_cons.mp isRest with rfl | isAfter
    · refine ⟨Text.itoa_isWord _, fun isDigit => ?_⟩
      exact absurd (Text.isDigit_of_mem_itoa isDigit) (by decide)
    · exact process.words word (mem_append_right _ isAfter)
  have absent :
      ')' ∉ ' ' :: ([' '].intercalate (process.before ++ Text.itoa process.startTicks :: process.after) ++
      ['\n']) := by
    have inWords : ')' ∉ [' '].intercalate (process.before ++ Text.itoa process.startTicks :: process.after) :=
      Text.notMem_intercalate (by decide) fun word member => (words word member).2
    simpa using inWords
  have long : ¬(' ' :: ([' '].intercalate (process.before ++ Text.itoa process.startTicks :: process.after) ++
      ['\n'])).length ≤ 1 := by
    simp
  have found : Text.afterLast ')' process.stat =
      some (' ' :: ([' '].intercalate (process.before ++ Text.itoa process.startTicks :: process.after) ++
      ['\n'])) :=
    Text.afterLast_append absent _
  rw [getProcessStartTimeTicks, found]
  dsimp only
  rw [if_neg long, drop_succ_cons, drop_zero, Text.fields_lines fun word member => (words word member).1,
    getElem?_append_right (Nat.le_of_eq process.count), process.count]
  rfl

theorem processStartTime_stat {started : Nat} (found : processStartTime process.stat = some started) :
    started = process.startTicks * tick := by
  unfold processStartTime at found
  rw [getProcessStartTimeTicks_stat] at found
  obtain ⟨ticks, parsed, inRange⟩ := Option.bind_eq_some_iff.mp ((Option.bind_some _ _).symm.trans found)
  have isTicks := Text.parseInt_itoa parsed
  split at inRange
  · cases inRange
  · rw [← Option.some.inj inRange, isTicks]
    rfl

theorem cacheKey_injective
    (same : cacheKey process.pid (Text.itoa process.startTicks) = cacheKey other.pid (Text.itoa other.startTicks)) :
    process.pid = other.pid ∧ process.startTicks = other.startTicks := by
  have cut : ∀ one : Process, Text.cut '_' (cacheKey one.pid (Text.itoa one.startTicks)) =
      some (Text.itoa one.pid, Text.itoa one.startTicks) := by
    intro one
    refine Text.cut_append (fun isDigit => ?_) _
    exact absurd (Text.isDigit_of_mem_itoa isDigit) (by decide)
  have parts := (cut process).symm.trans ((congrArg _ same).trans (cut other))
  obtain ⟨pids, ticks⟩ := Prod.mk.inj (Option.some.inj parts)
  exact ⟨Text.itoa_injective pids, Text.itoa_injective ticks⟩

end stat

section attributed

variable (history : History)

/-- The answer for an event is the result for the process that had the number when the event was received. If none
had it, it is the result for one that started later in the same clock tick. -/
def Attributed (event : NewPidEvent) (answer : Except ContainerError Str) : Prop :=
  (∀ process ∈ history.processes, process.holds event.pid event.seenAt = true → answer = process.container) ∧
  ((∀ process ∈ history.processes, process.holds event.pid event.seenAt = false) →
    ∃ process ∈ history.processes, process.pid = event.pid ∧ event.seenAt < process.start ∧
      process.startTicks = event.seenAt / tick ∧ answer = process.container)

/-- The answer is right if a process is found from now on that has the number since the event was received. -/
def Tentative (event : NewPidEvent) (answer : Except ContainerError Str) (now : Nat) : Prop :=
  ∀ process ∈ history.processes, ∀ later, now ≤ later → process.holds event.pid later = true →
    process.startTicks * tick ≤ event.seenAt → answer = process.container

/-- An entry of the cache was made from the start time of a process and the cgroup of one that had the number
later. -/
def Cached (now : Nat) (key containerID : Str) : Prop :=
  ∃ process ∈ history.processes, ∃ other ∈ history.processes, ∃ time later,
    key = cacheKey process.pid (Text.itoa process.startTicks) ∧ process.holds process.pid time = true ∧
    other.holds process.pid later = true ∧ time ≤ later ∧ later ≤ now ∧ other.container = .ok containerID

inductive Progress where
  | idle
  | received (event : NewPidEvent)
  | started (event : NewPidEvent) (process : Process) (time : Nat)
  | fetched (event : NewPidEvent) (process : Process) (time : Nat) (other : Process) (later : Nat)
  | tentative (event : NewPidEvent) (answer : Except ContainerError Str)
  | verified (event : NewPidEvent) (answer : Except ContainerError Str)

def Progress.Fits (now : Nat) : Progress → Prop
  | .idle => True
  | .received event => event.seenAt ≤ now
  | .started event process time => process ∈ history.processes ∧ process.holds event.pid time = true ∧
      event.seenAt ≤ time ∧ time ≤ now
  | .fetched event process time other later => process ∈ history.processes ∧ process.holds event.pid time = true ∧
      event.seenAt ≤ time ∧ time ≤ later ∧ other ∈ history.processes ∧
      other.holds event.pid later = true ∧ later ≤ now
  | .tentative event answer => event.seenAt ≤ now ∧ Tentative history event answer now
  | .verified event answer => event.seenAt ≠ 0 → Attributed history event answer

/-- What holds of the cache, of the answers and of the lookups that are under way. -/
structure Tracked (state : LookupState) (progress : LookupWorker → Progress) : Prop where
  cache : ∀ key containerID, state.cache.lookup key = some containerID → Cached history state.now key containerID
  answers : ∀ event answer, (event, answer) ∈ state.answers → event.seenAt ≠ 0 → Attributed history event answer
  workers : ∀ worker, (progress worker).Fits history state.now

def lookupDiscipline : Discipline (lookups history) LookupWorker Progress where
  inv := Tracked history
  agrees _ _ := True
  idle := .idle
  allows _ _ _ _ _ := True

end attributed

section tentative

variable {history : History} {event : NewPidEvent} {process other : Process} {time later now : Nat}

/-- The cgroup that was read after the start time is the one of the process, if that has the number still. -/
theorem tentative_of_read (isProcess : process ∈ history.processes) (isOther : other ∈ history.processes)
    (first : process.holds event.pid time = true) (second : other.holds event.pid later = true)
    (seen : event.seenAt ≤ time) (order : time ≤ later) (past : later ≤ now) :
    Tentative history event other.container now := by
  intro last isLast then' notBefore holds started
  have lastTime : time ≤ then' := by omega
  have same : process = last := history.same_of_started isProcess isLast first holds lastTime (by omega)
  rw [← same] at holds ⊢
  have still : process.holds event.pid later = true := process.holds_between first holds order (by omega)
  rw [history.same_holder isProcess isOther still second]

theorem tentative_of_cached {containerID : Str} (isProcess : process ∈ history.processes)
    (first : process.holds event.pid time = true) (seen : event.seenAt ≤ time) (past : time ≤ now)
    (cached : Cached history now (cacheKey event.pid (Text.itoa process.startTicks)) containerID) :
    Tentative history event (.ok containerID) now := by
  have isPid : process.pid = event.pid := (Process.holds_iff.mp first).1
  obtain ⟨cachedFor, isCachedFor, other, isOther, cachedAt, fetchedAt, sameKey, holdsThen, otherHolds, order,
    fetched, result⟩ :=
    cached
  rw [← isPid] at sameKey
  obtain ⟨samePid, sameTicks⟩ := cacheKey_injective sameKey
  have same : process = cachedFor := history.same_of_startTicks isProcess isCachedFor samePid sameTicks
  rw [← same, isPid] at holdsThen otherHolds
  intro last isLast then' notBefore holds started
  have sameLast : process = last := history.same_of_started isProcess isLast first holds (by omega) (by omega)
  rw [← sameLast] at holds ⊢
  have still : process.holds event.pid fetchedAt = true := process.holds_between holdsThen holds order (by omega)
  rw [history.same_holder isProcess isOther still otherHolds, result]

/-- An answer is right if the process that has the number now started before the event was received, as far as the
clock tells. -/
theorem attributed_of_started {answer : Except ContainerError Str} (tentative : Tentative history event answer now)
    (seen : event.seenAt ≤ now) (isProcess : process ∈ history.processes)
    (holds : process.holds event.pid now = true) (started : process.startTicks * tick ≤ event.seenAt) :
    Attributed history event answer := by
  have result : answer = process.container := tentative process isProcess now (Nat.le_refl _) holds started
  constructor
  · intro holder isHolder held
    rw [history.same_of_started isHolder isProcess held holds seen started]
    exact result
  · intro nobody
    obtain ⟨isPid, startedBy, running⟩ := Process.holds_iff.mp holds
    have after : event.seenAt < process.start := by
      by_contra before
      have held : process.holds event.pid event.seenAt = true := by
        refine Process.holds_iff.mpr ⟨isPid, by omega, fun exit isExit => ?_⟩
        have notGone := running exit isExit
        omega
      rw [nobody process isProcess] at held
      cases held
    refine ⟨process, isProcess, isPid, after, ?_, result⟩
    unfold Process.startTicks tick at started ⊢
    omega

end tentative

section tracked

variable {history : History} {state after : LookupState} {progress : LookupWorker → Progress}
  {worker : LookupWorker} {note : Progress} {event : NewPidEvent}

theorem Progress.Fits.later {now later : Nat} (fits : note.Fits history now) (passes : now ≤ later) :
    note.Fits history later := by
  cases note with
  | idle => exact trivial
  | received event => exact Nat.le_trans fits passes
  | started event process time =>
    obtain ⟨isProcess, holds, seen, past⟩ := fits
    exact ⟨isProcess, holds, seen, Nat.le_trans past passes⟩
  | fetched event process time other fetchedAt =>
    obtain ⟨isProcess, holds, seen, order, isOther, otherHolds, past⟩ := fits
    exact ⟨isProcess, holds, seen, order, isOther, otherHolds, Nat.le_trans past passes⟩
  | tentative event answer =>
    obtain ⟨seen, tentative⟩ := fits
    exact ⟨Nat.le_trans seen passes, fun process isProcess then' notBefore =>
      tentative process isProcess then' (Nat.le_trans passes notBefore)⟩
  | verified event answer => exact fits

section

variable (tracked : Tracked history state progress)
include tracked

/-- A lookup gets further in an unchanged state. -/
theorem Tracked.renote (fits : note.Fits history state.now) :
    Tracked history state (Function.update progress worker note) where
  cache := tracked.cache
  answers := tracked.answers
  workers other := by
    by_cases here : other = worker
    · rw [here, Function.update_self]
      exact fits
    · rw [Function.update_of_ne here]
      exact tracked.workers other

theorem Tracked.fits (here : progress worker = note) : note.Fits history state.now :=
  here ▸ tracked.workers worker

theorem Tracked.occur {event : LookupState.Event}
    (occurred : LookupState.occur event state = some after) : Tracked history after progress := by
  cases event with
  | pass duration =>
    obtain rfl := Option.some.inj occurred
    refine ⟨fun key containerID found => ?_, tracked.answers, fun worker => ?_⟩
    · obtain ⟨process, isProcess, other, isOther, time, later, isKey, holds, otherHolds, order, past, result⟩ :=
        tracked.cache key containerID found
      exact ⟨process, isProcess, other, isOther, time, later, isKey, holds, otherHolds, order,
        Nat.le_trans past (Nat.le_add_right _ _), result⟩
    · exact (tracked.workers worker).later (Nat.le_add_right _ _)
  | evict key =>
    obtain rfl := Option.some.inj occurred
    refine ⟨fun other containerID found => ?_, tracked.answers, tracked.workers⟩
    exact tracked.cache other containerID (SortedMap.lookup_erase_eq_some.mp found).2

end

theorem Choice.answer_some {α : Type} {choice : LookupState.Choice} {result : Option α} {value : α}
    (answered : choice.answer result = some value) : result = some value := by
  cases choice with
  | works path => exact answered
  | fails => cases answered

theorem holder_of_read {α : Type} {choice : LookupState.Choice} {file : Process → α} {pid now : Nat} {text : α}
    (read : choice.answer ((history.holder pid now).map file) = some text) :
    ∃ process ∈ history.processes, process.holds pid now = true ∧ file process = text := by
  obtain ⟨process, found, isText⟩ := Option.map_eq_some_iff.mp (Choice.answer_some read)
  obtain ⟨isProcess, holds⟩ := history.of_holder found
  exact ⟨process, isProcess, holds, isText⟩

/-- The files of the process are read one after the other. An answer is tentative, since the process may have been
replaced between the reads. -/
theorem containerIDForPID_safe (worker : LookupWorker) (event : NewPidEvent) :
    (lookupDiscipline history).Safe worker
      (fun result note => note = if isAnswer result then .tentative event result else .idle)
      (containerIDForPID event.pid) (.received event) := by
  refine ⟨trivial, fun state progress tracked here choice stat after _ performed => ?_⟩
  obtain ⟨read, rfl⟩ := Prod.mk.inj (Option.some.inj performed)
  have seen : event.seenAt ≤ state.now := tracked.fits here
  match stat, read with
  | none, _ => exact ⟨.idle, tracked.renote trivial, rfl⟩
  | some raw, read =>
  obtain ⟨process, isProcess, holds, rfl⟩ := holder_of_read read
  refine ⟨.started event process state.now, tracked.renote ⟨isProcess, holds, seen, Nat.le_refl _⟩, ?_⟩
  dsimp only
  rw [getProcessStartTimeTicks_stat]
  refine ⟨trivial, fun state progress tracked here choice item after _ performed => ?_⟩
  obtain ⟨found, rfl⟩ := Prod.mk.inj (Option.some.inj performed)
  obtain ⟨_, _, seen, past⟩ := tracked.fits here
  match item, found with
  | some containerID, found =>
    have tentative := tentative_of_cached isProcess holds seen past (tracked.cache _ _ found)
    exact ⟨.tentative event (.ok containerID), tracked.renote ⟨by omega, tentative⟩, rfl⟩
  | none, _ =>
  refine ⟨_, tracked.renote (tracked.fits here), trivial,
    fun state progress tracked here choice data after _ performed => ?_⟩
  obtain ⟨read, rfl⟩ := Prod.mk.inj (Option.some.inj performed)
  obtain ⟨_, _, _, past⟩ := tracked.fits here
  match data, read with
  | none, _ => exact ⟨.idle, tracked.renote trivial, rfl⟩
  | some data, read =>
  obtain ⟨other, isOther, otherHolds, rfl⟩ := holder_of_read read
  have tentative : Tentative history event other.container state.now :=
    tentative_of_read isProcess isOther holds otherHolds seen past (Nat.le_refl _)
  dsimp only
  cases result : searchContainerID (scanLines other.cgroup) with
  | error error =>
    rw [Process.container, result] at tentative
    by_cases none' : error = .containerIDNotFound
    · refine ⟨.tentative event (.error error), tracked.renote ⟨by omega, tentative⟩, ?_⟩
      exact (if_pos (decide_eq_true none')).symm
    · refine ⟨.idle, tracked.renote trivial, ?_⟩
      exact (if_neg (by simpa [isAnswer] using none')).symm
  | ok containerID =>
    refine ⟨.fetched event process _ other state.now,
      tracked.renote ⟨isProcess, holds, seen, past, isOther, otherHolds, Nat.le_refl _⟩, trivial, ?_⟩
    intro state progress tracked here choice _ after _ performed
    obtain ⟨_, rfl⟩ := Prod.mk.inj (Option.some.inj performed)
    obtain ⟨_, _, _, order, _, _, past⟩ := tracked.fits here
    have stored := tentative_of_read isProcess isOther holds otherHolds seen order past
    rw [Process.container, result] at stored
    have isPid : process.pid = event.pid := (Process.holds_iff.mp holds).1
    refine ⟨.tentative event (.ok containerID), ⟨fun key found isFound => ?_, tracked.answers, ?_⟩, rfl⟩
    · by_cases same : key = cacheKey event.pid (Text.itoa process.startTicks)
      · rw [same, SortedMap.lookup_insert_self] at isFound
        obtain rfl := Option.some.inj isFound
        refine ⟨process, isProcess, other, isOther, _, _, ?_, ?_, ?_, order, past, result⟩
        · rw [same, isPid]
        · rw [isPid]
          exact holds
        · rw [isPid]
          exact otherHolds
      · rw [SortedMap.lookup_insert_ne _ _ same] at isFound
        exact tracked.cache key found isFound
    · have fits : (Progress.tentative event (.ok containerID)).Fits history state.now := ⟨by omega, stored⟩
      exact (tracked.renote fits).workers

/-- The tentative answer is verified if the process started before the event and has its mount namespace. -/
theorem verifyProcess_safe (worker : LookupWorker) (event : NewPidEvent) (answer : Except ContainerError Str) :
    (lookupDiscipline history).Safe worker
      (fun result note =>
        match result with
        | .ok () => note = .verified event answer
        | .error _ => note = .idle)
      (verifyProcess event) (.tentative event answer) := by
  refine ⟨trivial, fun state progress tracked here choice stat after _ performed => ?_⟩
  obtain ⟨read, rfl⟩ := Prod.mk.inj (Option.some.inj performed)
  obtain ⟨seen, tentative⟩ := tracked.fits here
  dsimp only
  cases found : stat.bind processStartTime with
  | none => exact ⟨.idle, tracked.renote trivial, rfl⟩
  | some started =>
  obtain ⟨raw, rfl, isStarted⟩ := Option.bind_eq_some_iff.mp found
  obtain ⟨process, isProcess, holds, rfl⟩ := holder_of_read read
  have rounded := processStartTime_stat isStarted
  dsimp only
  by_cases changed : event.seenAt > 0 ∧ started > event.seenAt
  · rw [if_pos changed]
    exact ⟨.idle, tracked.renote trivial, rfl⟩
  rw [if_neg changed]
  have attributed : event.seenAt ≠ 0 → Attributed history event answer := by
    intro known
    exact attributed_of_started tentative seen isProcess holds (by omega)
  refine ⟨.verified event answer, tracked.renote attributed, trivial, ?_⟩
  intro state progress tracked here choice link after _ performed
  obtain ⟨_, rfl⟩ := Prod.mk.inj (Option.some.inj performed)
  cases link with
  | none => exact ⟨.idle, tracked.renote trivial, rfl⟩
  | some link =>
    dsimp only
    split
    · exact ⟨.verified event answer, tracked.renote attributed, rfl⟩
    · exact ⟨.idle, tracked.renote trivial, rfl⟩

theorem containerIDByPID_safe (worker : LookupWorker) (event : NewPidEvent) :
    (lookupDiscipline history).Safe worker (fun _ note => note = .idle) (containerIDByPID event)
      (.received event) := by
  refine .bind ((containerIDForPID_safe worker event).imp fun result note isNote => ?_)
  split
  next isResult =>
    rw [if_pos isResult] at isNote
    rw [isNote]
    refine .bind ((verifyProcess_safe worker event result).imp fun outcome note isNote => ?_)
    cases outcome with
    | error error => exact isNote
    | ok _ =>
      obtain rfl := isNote
      refine ⟨trivial, fun state progress tracked here choice _ after _ performed => ?_⟩
      obtain ⟨_, rfl⟩ := Prod.mk.inj (Option.some.inj performed)
      have fits : Progress.idle.Fits history state.now := trivial
      refine ⟨.idle, ⟨tracked.cache, fun other answer isAnswer => ?_, (tracked.renote fits).workers⟩, rfl⟩
      rcases mem_cons.mp isAnswer with same | before
      · obtain ⟨rfl, rfl⟩ := Prod.mk.inj same
        exact tracked.fits here
      · exact tracked.answers other answer before
  next isResult =>
    rw [if_neg isResult] at isNote
    exact isNote

theorem containerIDForKey_safe (cgroupKeys : Bool) (worker : LookupWorker) (event : NewPidEvent) :
    (lookupDiscipline history).Safe worker (fun _ note => note = .idle) (containerIDForKey cgroupKeys event)
      (.received event) := by
  unfold containerIDForKey
  split
  · refine ⟨trivial, fun state progress tracked here choice path after _ performed => ?_⟩
    have same : after = state := by
      cases choice with
      | works path => exact (Prod.mk.inj (Option.some.inj performed)).2.symm
      | fails => exact (Prod.mk.inj (Option.some.inj performed)).2.symm
    rw [same]
    dsimp only
    cases path.bind fun path => (findContainerIDs path).getLast? with
    | some containerID => exact ⟨.idle, tracked.renote trivial, rfl⟩
    | none => exact ⟨_, tracked.renote (tracked.fits here), containerIDByPID_safe worker event⟩
  · exact containerIDByPID_safe worker event

theorem LookupWorker.safe (cgroupKeys : Bool) (worker : LookupWorker) :
    (lookupDiscipline history).Safe worker (fun _ note => note = .idle) (worker.code cgroupKeys) .idle := by
  refine ⟨trivial, fun state progress tracked here choice seenAt after _ performed => ?_⟩
  obtain ⟨read, rfl⟩ := Prod.mk.inj (Option.some.inj performed)
  have seen : seenAt.getD 0 ≤ state.now := by
    cases choice with
    | works path =>
      rw [← read]
      exact Nat.le_refl _
    | fails =>
      rw [← read]
      exact Nat.zero_le _
  refine ⟨.received ⟨worker.pid, worker.mntns, worker.key, worker.generation, seenAt.getD 0⟩,
    tracked.renote seen, ?_⟩
  exact .bind ((containerIDForKey_safe cgroupKeys worker _).imp fun _ _ isNote => isNote)

/-- In every run of lookups side by side: an answer that is given by the number of a process for an event whose
reception time is known is attributed to the right process. -/
theorem answers_attributed {history : History} {cgroupKeys : Bool} {now : Nat}
    {world : World (lookups history) LookupWorker}
    (reach : World.Reach (LookupWorker.code cgroupKeys) (fun _ _ => True) (.idle ⟨now, .empty, []⟩) world) :
    ∀ event answer, (event, answer) ∈ world.state.answers → event.seenAt ≠ 0 → Attributed history event answer := by
  have first : Tracked history ⟨now, .empty, []⟩ fun _ => .idle :=
    ⟨fun _ _ found => (nomatch found), fun _ _ isAnswer => (nomatch isAnswer), fun _ => trivial⟩
  obtain ⟨progress, noted⟩ := (lookupDiscipline history).noted_of_reach reach first (LookupWorker.safe cgroupKeys)
    (fun _ _ _ _ _ _ _ _ => trivial) fun _ _ _ _ _ noted occurred => noted.inv.occur occurred
  exact noted.inv.answers

end tracked

section web

def webContainer : Str := List.replicate 64 'a'

/-- A process whose command looks like the end of its command. -/
def webProcess : Process where
  pid := 7
  start := 20000000
  exit := some 30000000
  comm := "web) 1".toList
  before := List.replicate 19 ['1']
  after := []
  cgroup := "0::/".toList ++ webContainer ++ ['\n']
  mntns := 4
  ordered := by simp
  count := rfl
  words := by
    intro field member
    have isOne : field = ['1'] := by simpa using member
    rw [isOne]
    exact ⟨⟨by decide, by simp [Text.isSpace]⟩, by decide⟩

def nextContainer : Str := List.replicate 64 'b'

/-- A process of another container, which gets the same number. -/
def nextProcess : Process := { webProcess with
  start := 40000000
  exit := none
  cgroup := "0::/".toList ++ nextContainer ++ ['\n']
  ordered := by simp }

def webHistory : History where
  processes := [webProcess, nextProcess]
  apart process isProcess other isOther _ := by
    have before : webProcess.Before nextProcess := ⟨30000000, rfl, by decide⟩
    rcases mem_pair.mp isProcess with rfl | rfl <;> rcases mem_pair.mp isOther with rfl | rfl
    · exact Or.inl rfl
    · exact Or.inr (Or.inl before)
    · exact Or.inr (Or.inr before)
    · exact Or.inl rfl

def lookupNumber (call : Nat) : LookupWorker := ⟨call, 7, 4, 1, 0⟩

def lookupSteps (call count : Nat) : List (Act (lookups webHistory) LookupWorker) :=
  List.replicate count (.step (lookupNumber call) (.works []))

/-- Two events are received at 25 ms. One is looked up at once, the other one when the number was given away. Then
the new process is reported. -/
def webActs : List (Act (lookups webHistory) LookupWorker) :=
  .start (lookupNumber 0) :: lookupSteps 0 8 ++ .start (lookupNumber 1) :: lookupSteps 1 1 ++
    .event (.pass 20000000) :: lookupSteps 1 5 ++ .start (lookupNumber 2) :: lookupSteps 2 6

def webStart : World (lookups webHistory) LookupWorker := .idle ⟨25000000, .empty, []⟩

def eventAt (seenAt : Nat) : NewPidEvent := ⟨7, 4, 1, 0, seenAt⟩

/-- The containers of both processes are found, and no event is attributed to the wrong one. -/
theorem web_attributed : ∃ world : World (lookups webHistory) LookupWorker,
    World.Reach (LookupWorker.code false) (fun _ _ => True) webStart world ∧
    world.state.answers = [(eventAt 45000000, .ok nextContainer), (eventAt 25000000, .ok webContainer)] ∧
    ∀ event answer, (event, answer) ∈ world.state.answers → Attributed webHistory event answer := by
  have ran : (webStart.run (LookupWorker.code false) (fun _ _ => true) webActs).any
      (fun world => decide (world.state.answers =
        [(eventAt 45000000, .ok nextContainer), (eventAt 25000000, .ok webContainer)])) = true := by
    decide
  obtain ⟨world, reach, answered⟩ := World.exists_of_any ran fun _ _ _ => trivial
  have answers := of_decide_eq_true answered
  refine ⟨world, reach, answers, fun event answer isAnswer => answers_attributed reach event answer isAnswer ?_⟩
  rw [answers] at isAnswer
  rcases mem_pair.mp isAnswer with same | same <;> cases same <;> decide

end web

end SecurityProfiles.Bpf
