import SecurityProfiles.Enricher.Places

namespace SecurityProfiles.Enricher

open Threads Buckets Function

section fitting

variable {state after : Buckets} {stages : Goroutine → Stage} {old stage : Stage} {line : AuditLine}
  {bucket callback : Nat}

theorem holds_update (stages : Goroutine → Stage) (goroutine : Goroutine) (stage : Stage) :
    (fun other => (update stages goroutine stage other).holds) =
      update (fun other => (stages other).holds) goroutine stage.holds := by
  funext other
  simp only [update_apply]
  split <;> rfl

theorem emitting_update (stages : Goroutine → Stage) (callback : Nat) (stage : Stage) :
    (fun other => (update stages (.callback callback) stage (.callback other)).emitting) =
      update (fun other => (stages (.callback other)).emitting) callback stage.emitting := by
  funext other
  simp only [update_apply, Goroutine.callback.injEq]
  split <;> rfl

/-- The state fits to the stage of the goroutine for the lines. -/
theorem Fitting.at (fit : Fitting state stages) (here : stages .lines = old) :
    Placed state old.fresh (fun callback => (stages (.callback callback)).emitting) ∧
      Logged state old.unput old.fresh ∧ Ending state old ∧ old.Knows state := by
  subst here
  exact ⟨fit.placed, fit.logged, fit.ending, fit.knows⟩

/-- The goroutine for the lines has done a step. -/
theorem fitting_lines (fit : Fitting state stages)
    (placed : Placed after stage.fresh fun callback => (stages (.callback callback)).emitting)
    (held : Held after (update (fun other => (stages other).holds) .lines stage.holds))
    (logged : Logged after stage.unput stage.fresh) (ending : Ending after stage) (knows : stage.Knows after)
    (running : after.running = state.running) : Fitting after (update stages .lines stage) where
  placed := by simpa using placed
  held := by rw [holds_update]; exact held
  logged := by simpa using logged
  ending := by simpa using ending
  knows := by simpa using knows
  running callback := by
    rw [update_of_ne (by simp), running]
    exact fit.running callback

/-- No bucket was locked or unlocked. -/
theorem Fitting.held_same (fit : Fitting state stages) {goroutine : Goroutine} (here : stages goroutine = old)
    (holds : stage.holds = old.holds)
    (locks : ∀ other, (after.buckets other).locked = (state.buckets other).locked) :
    Held after (update (fun other => (stages other).holds) goroutine stage.holds) := by
  subst here
  rw [holds, update_eq_self]
  exact fit.held.congr locks

/-- A callback has done a step. -/
theorem fitting_callback
    (placed : Placed after (stages .lines).fresh
      (update (fun other => (stages (.callback other)).emitting) callback stage.emitting))
    (held : Held after (update (fun other => (stages other).holds) (.callback callback) stage.holds))
    (logged : Logged after (stages .lines).unput (stages .lines).fresh) (ending : Ending after (stages .lines))
    (knows : (stages .lines).Knows after) (own : stage.emitting ≠ none → callback ∈ after.running)
    (running : ∀ other, other ≠ callback → (stages (.callback other)).emitting ≠ none → other ∈ after.running) :
    Fitting after (update stages (.callback callback) stage) where
  placed := by rw [emitting_update]; simpa using placed
  held := by rw [holds_update]; exact held
  logged := by simpa using logged
  ending := by simpa using ending
  knows := by simpa using knows
  running other emits := by
    by_cases same : other = callback
    · rw [same, update_self] at emits
      rw [same]
      exact own emits
    · rw [update_of_ne (by simpa using same)] at emits
      exact running other same emits

theorem Fitting.notClosed (fit : Fitting state stages) (notStopped : state.stopped = false) :
    state.closed = false := by
  by_contra closed
  have stopped := (fit.ending.closed (by simpa using closed)).2.1
  rw [notStopped] at stopped
  cases stopped

theorem ending_open (notStopped : state.stopped = false) (notClosed : state.closed = false) (goes : ¬stage.Ended) :
    Ending state stage where
  stopped stopped := by rw [notStopped] at stopped; cases stopped
  ended isEnded := absurd isEnded goes
  closed closed := by rw [notClosed] at closed; cases closed

/-- While a line is processed, the log has not ended. -/
theorem Fitting.going (fit : Fitting state stages) (here : stages .lines = old) (busy : ¬old.Resting)
    (goes : ¬stage.Ended) (stopped : after.stopped = state.stopped) (closed : after.closed = state.closed) :
    Ending after stage := by
  have notStopped : state.stopped = false := by
    by_contra isStopped
    exact busy (here ▸ fit.ending.stopped (by simpa using isStopped))
  exact ending_open (stopped.trans notStopped) (closed.trans (fit.notClosed notStopped)) goes

theorem Fitting.goOn (fit : Fitting state stages) (here : stages .lines = old) (busy : ¬old.Resting)
    (goes : ¬stage.Ended) (holds : stage.holds = old.holds) (unput : stage.unput = old.unput)
    (fresh : stage.fresh = old.fresh) (knows : stage.Knows state) : Fitting state (update stages .lines stage) := by
  obtain ⟨placed, logged, -, -⟩ := fit.at here
  rw [← fresh] at placed logged
  rw [← unput] at logged
  exact fitting_lines fit placed (fit.held_same here holds fun _ => rfl) logged
    (fit.going here busy goes rfl rfl) knows rfl

/-- What the goroutine for the lines knows is not lost when others evict buckets, lock them, or emit one that it
does not hold. -/
theorem Stage.Knows.mono (knows : stage.Knows state)
    (cache : ∀ pid other, after.logLinesCache.lookup pid = some other → state.logLinesCache.lookup pid = some other)
    (info : ∀ other, (after.buckets other).processInfo = (state.buckets other).processInfo)
    (emitted : ∀ other, stage.holds = some other → (after.buckets other).emitted = (state.buckets other).emitted) :
    stage.Knows after := by
  have absent : ∀ pid, state.logLinesCache.lookup pid = none → after.logLinesCache.lookup pid = none := by
    intro pid gone
    refine Option.eq_none_iff_forall_ne_some.mpr fun other found => ?_
    rw [cache pid other found] at gone
    cases gone
  cases stage with
  | found line bucket =>
    refine ⟨by rw [info]; exact knows.1, ?_⟩
    rcases knows.2 with here | gone
    · cases now : after.logLinesCache.lookup line.processID with
      | none => exact Or.inr rfl
      | some other => exact Or.inl ((cache _ _ now).symm.trans here)
    · exact Or.inr (absent _ gone)
  | leaving line bucket gone => exact fun isGone => absent _ (knows isGone)
  | absent line => exact absent _ knows
  | filling line bucket cached =>
    refine ⟨(emitted bucket rfl).trans knows.1, ?_, fun isNew => absent _ (knows.2.2 isNew)⟩
    exact knows.2.1.imp (info bucket).trans fun fits => fits.congr (info bucket)
  | filled line bucket cached =>
    exact ⟨(emitted bucket rfl).trans knows.1, knows.2.1.congr (info bucket), fun isNew =>
      absent _ (knows.2.2 isNew)⟩
  | stored line bucket cached => exact ⟨knows.1.congr (info bucket), fun isNew => absent _ (knows.2 isNew)⟩
  | storing line bucket => exact ⟨knows.1.congr (info bucket), absent _ knows.2⟩
  | emptied => exact fun other => absent _ (knows other)
  | _ => exact trivial

theorem Fitting.evict (fit : Fitting state stages) (pid : Nat) : Fitting (state.evict pid) stages := by
  have rest : (state.evict pid).buckets = state.buckets ∧ (state.evict pid).running = state.running ∧
      (state.evict pid).stopped = state.stopped ∧ (state.evict pid).closed = state.closed := by
    rcases evict_cases state pid with ⟨_, same⟩ | ⟨_, _, same⟩ <;> rw [same] <;> exact ⟨rfl, rfl, rfl, rfl⟩
  obtain ⟨buckets, running, stopped, closed⟩ := rest
  refine ⟨fit.placed.evict pid, fit.held.congr fun other => by rw [buckets], fit.logged.evict pid, ⟨?_, ?_, ?_⟩,
    fit.knows.mono (fun other bucket found => ((lookup_evict state pid other bucket).mp found).1)
    (fun _ => by rw [buckets])
      (fun _ _ => by rw [buckets]), fun callback emits => by rw [running]; exact fit.running callback emits⟩
  · rw [stopped]
    exact fit.ending.stopped
  · rw [stopped]
    exact fit.ending.ended
  · rw [closed]
    intro isClosed
    obtain ⟨isIdle, isStopped, noRemoved, noRunning, noCached⟩ := fit.ending.closed isClosed
    rcases evict_cases state pid with ⟨_, same⟩ | ⟨bucket, isCached, _⟩
    · rw [same]
      exact ⟨isIdle, isStopped, noRemoved, noRunning, noCached⟩
    · rw [noCached] at isCached
      cases isCached

theorem Fitting.evictAll (fit : Fitting state stages) (pids : List Nat) : Fitting (state.evictAll pids) stages := by
  induction pids generalizing state with
  | nil => exact fit
  | cons pid pids ih => exact ih (fit.evict pid)

/-- The bucket is locked or unlocked, and nothing else changes. -/
abbrev relocked (state : Buckets) (bucket : Nat) (locked : Bool) : Buckets :=
  state.modify bucket fun content => { content with locked := locked }

theorem refined_locked (content : LogBucket) (locked : Bool) : content.Refined { content with locked := locked } :=
  ⟨rfl, rfl, fun info isInfo => ⟨info, isInfo, rfl, rfl⟩, fun _ => rfl⟩

theorem relocked_buckets (state : Buckets) (bucket other : Nat) (locked : Bool) :
    ((relocked state bucket locked).buckets other).locked =
        (if other = bucket then locked else (state.buckets other).locked) ∧
      ((relocked state bucket locked).buckets other).emitted = (state.buckets other).emitted ∧
      ((relocked state bucket locked).buckets other).processInfo = (state.buckets other).processInfo := by
  rw [modify_buckets]
  split
  · next here =>
      rw [here]
      exact ⟨rfl, rfl, rfl⟩
  · exact ⟨rfl, rfl, rfl⟩

variable {goroutine : Goroutine} {locked cached : Bool} {change : LogBucket → LogBucket}

theorem Logged.born_of_info {unput : Option AuditLine} {fresh : Option Nat} (logged : Logged state unput fresh)
    {info : ProcessInfo} (isInfo : (state.buckets bucket).processInfo = some info) : bucket < state.created := by
  refine logged.born fun isBlank => ?_
  rw [isBlank] at isInfo
  cases isInfo

/-- A locked bucket belongs to the goroutine that holds it. -/
theorem Fitting.own (fit : Fitting state stages) (own : (stages goroutine).holds = some bucket) :
    bucket < state.created ∧ ∀ other, (stages other).holds = some bucket → other = goroutine := by
  refine ⟨fit.logged.born fun isBlank => ?_, fun other isHeld => fit.held.alone isHeld own⟩
  have isLocked := fit.held.locked own
  rw [isBlank] at isLocked
  cases isLocked

theorem Fitting.unheld (fit : Fitting state stages) (unlocked : (state.buckets bucket).locked = false)
    (other : Goroutine) (isHeld : (stages other).holds = some bucket) : other = goroutine :=
  nomatch unlocked.symm.trans (fit.held.locked isHeld)

theorem Fitting.relockLines (fit : Fitting state stages) (here : stages .lines = old)
    (born : bucket < state.created) (alone : ∀ other, (stages other).holds = some bucket → other = .lines)
    (busy : ¬old.Resting) (goes : ¬stage.Ended) (holds : stage.holds = if locked then some bucket else none)
    (unput : stage.unput = old.unput) (fresh : stage.fresh = old.fresh)
    (knows : stage.Knows (relocked state bucket locked)) :
    Fitting (relocked state bucket locked) (update stages .lines stage) := by
  obtain ⟨placed, logged, -, -⟩ := fit.at here
  rw [← fresh] at placed logged
  rw [← unput] at logged
  refine fitting_lines fit (placed.congr rfl rfl rfl fun other => (relocked_buckets state bucket other locked).2.1)
    ?_ (logged.modify born (refined_locked _ _)) (fit.going here busy goes rfl rfl) knows rfl
  rw [holds]
  exact fit.held.setLock locked alone fun other => (relocked_buckets state bucket other locked).1

theorem Fitting.relockCallback (fit : Fitting state stages) (born : bucket < state.created)
    (alone : ∀ other, (stages other).holds = some bucket → other = .callback callback)
    (holds : stage.holds = if locked then some bucket else none)
    (emitting : stage.emitting = (stages (.callback callback)).emitting) :
    Fitting (relocked state bucket locked) (update stages (.callback callback) stage) := by
  have same := fun other => relocked_buckets state bucket other locked
  refine fitting_callback ?_ ?_ (fit.logged.modify born (refined_locked _ _))
    ⟨fit.ending.stopped, fit.ending.ended, fit.ending.closed⟩
    (fit.knows.mono (fun _ _ => id) (fun other => (same other).2.2) fun other _ => (same other).2.1)
    (fun emits => fit.running callback (emitting ▸ emits)) fun other _ => fit.running other
  · rw [update_eq_self_iff.mpr emitting]
    exact fit.placed.congr rfl rfl rfl fun other => (same other).2.1
  · rw [holds]
    exact fit.held.setLock locked alone fun other => (same other).1

theorem modify_same {α : Type} {field : LogBucket → α}
    (same : field (change (state.buckets bucket)) = field (state.buckets bucket)) (other : Nat) :
    field ((state.modify bucket change).buckets other) = field (state.buckets other) := by
  rw [modify_buckets]
  split
  · next isBucket =>
      rw [isBucket]
      exact same
  · rfl

/-- More is told about the process of the line. -/
theorem Fitting.fill (fit : Fitting state stages) (here : stages .lines = old) (busy : ¬old.Resting)
    (own : old.holds = some bucket) (pending : (state.buckets bucket).emitted = false)
    (refined : (state.buckets bucket).Refined (change (state.buckets bucket)))
    (locked : (change (state.buckets bucket)).locked = (state.buckets bucket).locked)
    (unput : old.unput = some line) (fresh : (Stage.filled line bucket cached).fresh = old.fresh)
    (fits : (change (state.buckets bucket)).Fits line)
    (isNew : cached = false → state.logLinesCache.lookup line.processID = none) :
    Fitting (state.modify bucket change) (update stages .lines (.filled line bucket cached)) := by
  obtain ⟨placed, logged, -, -⟩ := fit.at here
  rw [← fresh] at placed logged
  rw [unput] at logged
  refine fitting_lines fit (placed.congr rfl rfl rfl (modify_same refined.emitted))
    (fit.held_same here own.symm (modify_same locked)) (logged.modify (fit.own (here ▸ own)).1 refined)
    (fit.going here busy id rfl rfl) ⟨?_, ?_, isNew⟩ rfl
  · rw [modify_same refined.emitted]
    exact pending
  · rw [modify_buckets, if_pos rfl]
    exact fits

theorem fresh_filled {cached : Bool} :
    (Stage.filled line bucket cached).fresh = (Stage.filling line bucket cached).fresh ∧
      (Stage.stored line bucket cached).fresh = (Stage.filled line bucket cached).fresh := by
  cases cached <;> exact ⟨rfl, rfl⟩

theorem lookup_evictAll {pids : List Nat} {pid : Nat} (gone : pid ∈ pids ∨ state.logLinesCache.lookup pid = none) :
    (state.evictAll pids).logLinesCache.lookup pid = none := by
  induction pids generalizing state with
  | nil =>
    rcases gone with member | absent
    · cases member
    · exact absent
  | cons first rest ih =>
    refine @ih (state.evict first) ?_
    rcases gone with member | absent
    · rcases List.mem_cons.mp member with rfl | member
      · exact Or.inr (lookup_evict_none state pid)
      · exact Or.inl member
    · exact Or.inr (lookup_evict_of_none absent first)

end fitting

section steps

variable {line : AuditLine} {bucket callback : Nat} {cached : Bool}

/-- An operation takes a goroutine from one stage to the next if the state fits to it afterwards. -/
theorem moves {goroutine : Goroutine} {op : Op} {old : Stage} {new : Buckets.Answer op → Stage}
    (agrees : Agrees op old)
    (kept : ∀ state stages, Fitting state stages → stages goroutine = old →
      ∀ choice answer after, Buckets.perform op choice state = some (answer, after) →
      Fitting after (update stages goroutine (new answer))) :
    discipline.Steps goroutine op old new :=
  ⟨agrees, fun state stages fit here choice answer after _ => kept state stages fit here choice answer after⟩

/-- Seccomp lines are processed, others are skipped, and at the end the cache is emptied. -/
def afterInput : Input → Stage
  | .ended => .stopping
  | .line none => .idle
  | .line (some line) => if line.auditType = .seccomp then .read line else .idle

theorem afterInput_tells (input : Input) (state : Buckets) :
    Input.accepted input = (afterInput input).unput.toList ∧ (afterInput input).fresh = none ∧
      (afterInput input).holds = none ∧ (input = .ended → (afterInput input).Resting) ∧
      ((afterInput input).Ended → input = .ended) ∧ (afterInput input).Knows state := by
  rcases input with _ | _ | line
  · exact ⟨rfl, rfl, rfl, fun _ => trivial, fun _ => rfl, trivial⟩
  · exact ⟨rfl, rfl, rfl, fun _ => trivial, fun ended => ended.elim, trivial⟩
  · simp only [Input.accepted, afterInput]
    split
    · exact ⟨rfl, rfl, rfl, fun ended => (nomatch ended), fun ended => ended.elim, trivial⟩
    · exact ⟨rfl, rfl, rfl, fun _ => trivial, fun ended => ended.elim, trivial⟩

theorem steps_nextLine : discipline.Steps .lines Op.nextLine .idle afterInput := by
  refine moves rfl fun state stages fit here choice input after performed => ?_
  cases choice with
  | input =>
    obtain ⟨notStopped, ⟨⟩⟩ := Option.ite_none_left_eq_some.mp performed
    obtain ⟨placed, logged, -, -⟩ := fit.at here
    obtain ⟨accepted, fresh, holds, rests, ended, knows⟩ := afterInput_tells input
      { state with accepted := state.accepted ++ Input.accepted input, stopped := input = .ended }
    have accepts := logged.accept _ _ accepted (input = .ended)
    refine fitting_lines fit ?_ (fit.held_same here holds fun _ => rfl) (fresh ▸ accepts)
      ⟨fun stopped => rests (of_decide_eq_true stopped), fun isEnded => decide_eq_true (ended isEnded), ?_⟩ knows
        rfl
    · rw [fresh]
      exact placed.congr rfl rfl rfl fun _ => rfl
    · exact fun closed => nomatch (fit.notClosed (Bool.eq_false_iff.mpr notStopped)).symm.trans closed
  | _ => cases performed

/-- The bucket that is cached for the process, if it is found. -/
theorem steps_get (line : AuditLine) : discipline.Steps .lines (Op.get line.processID) (.read line)
    fun found : Option Nat => found.elim (.read line) (.found line) := by
  refine moves trivial fun state stages fit here choice found after performed => ?_
  cases choice with
  | expired hidden =>
    cases performed
    cases found : if hidden then none else state.logLinesCache.lookup line.processID with
    | none =>
      rw [Option.elim_none, ← here, update_eq_self]
      exact fit
    | some bucket =>
      have isCached := (Option.ite_none_left_eq_some.mp found).2
      exact fit.goOn here id id rfl rfl rfl ⟨fit.logged.known _ _ isCached, Or.inl isCached⟩
  | _ => cases performed

theorem steps_delete (line : AuditLine) :
    discipline.Steps .lines (Op.delete line.processID) (.read line) fun _ => .absent line := by
  refine moves trivial fun state stages fit here choice _ after performed => ?_
  cases performed
  exact (fit.evict line.processID).goOn here id id rfl rfl rfl (lookup_evict_none state line.processID)

theorem steps_create (line : AuditLine) : discipline.Steps .lines (Op.create line) (.absent line)
    fun bucket : Nat => .filling line bucket false := by
  refine moves trivial fun state stages fit here choice _ after performed => ?_
  cases performed
  obtain ⟨placed, logged, -, knows⟩ := fit.at here
  have blank := logged.blank state.created (Nat.le_refl _)
  refine fitting_lines fit (placed.create line (by rw [blank]; rfl)) (fit.held.setLock true ?_ fun other => ?_)
    (logged.create line) (fit.going here id id rfl rfl) ⟨?_, Or.inl ?_, fun _ => knows⟩ rfl
  · exact fit.unheld (by rw [blank]; rfl)
  · dsimp only
    rw [update_apply]
    split <;> rfl
  · dsimp only
    rw [update_self]
    rfl
  · dsimp only
    rw [update_self]
    rfl

/-- The bucket is left if it was emitted or belongs to another executable. -/
def afterLock (line : AuditLine) (bucket : Nat) (content : LogBucket) : Stage :=
  if content.emitted then .leaving line bucket true
  else if content.processInfo.any (·.executable ≠ line.executable) then .leaving line bucket false
  else .filling line bucket true

section steps

variable (line : AuditLine) (bucket : Nat)

theorem steps_lock : discipline.Steps .lines (Op.lock bucket) (.found line bucket) (afterLock line bucket) := by
  refine moves trivial fun state stages fit here choice _ after performed => ?_
  obtain ⟨unlocked, ⟨⟩⟩ := Option.ite_none_left_eq_some.mp performed
  obtain ⟨placed, -, -, ⟨info, isInfo, samePid⟩, cacheKnown⟩ := fit.at here
  have locks := relocked_buckets state bucket bucket true
  have lock := fun stage => @Fitting.relockLines state stages _ stage bucket true fit here
    (fit.logged.born_of_info isInfo) (fit.unheld (by simpa using unlocked)) id
  unfold afterLock
  split
  · next isEmitted =>
      -- The cache has no other bucket for the process, because only this goroutine adds some.
      refine lock _ id rfl rfl rfl fun _ => ?_
      rcases cacheKnown with isCached | gone
      · cases placed.unique (.cached line.processID) .emitted isCached isEmitted
      · exact gone
  next pending =>
  split
  · exact lock _ id rfl rfl rfl Bool.noConfusion
  · next fits =>
      refine lock _ id rfl rfl rfl ⟨?_, Or.inr ⟨info, locks.2.2.trans isInfo, samePid, ?_⟩, Bool.noConfusion⟩
      · rw [locks.2.1]
        simpa using pending
      · rw [isInfo] at fits
        simpa using fits

theorem steps_leave (gone : Bool) : discipline.Steps .lines (Op.unlock bucket)
    (.leaving line bucket gone) fun _ => if gone then .absent line else .read line := by
  refine moves trivial fun state stages fit here choice _ after performed => ?_
  cases performed
  obtain ⟨-, -, -, known⟩ := fit.at here
  obtain ⟨born, alone⟩ := fit.own (show (stages .lines).holds = some bucket by rw [here]; rfl)
  refine fit.relockLines here born alone id ?_ ?_ ?_ ?_ ?_
  all_goals cases gone <;> first | exact id | rfl | exact trivial | exact known rfl

variable (cached : Bool)

theorem steps_fetchProcessInfo : discipline.Steps .lines
    (Op.fetchProcessInfo bucket line) (.filling line bucket cached) fun _ => .filled line bucket cached := by
  refine moves trivial fun state stages fit here choice _ after performed => ?_
  cases choice with
  | process cmdLine execRequestId =>
    cases performed
    obtain ⟨-, -, -, pending, soFar, isNew⟩ := fit.at here
    have filled :
        (state.buckets bucket).Refined (fillProcessInfo line cmdLine execRequestId (state.buckets bucket)) ∧
        (fillProcessInfo line cmdLine execRequestId (state.buckets bucket)).locked = (state.buckets bucket).locked ∧
        (fillProcessInfo line cmdLine execRequestId (state.buckets bucket)).Fits line := by
      unfold fillProcessInfo
      split
      · next info isInfo => exact ⟨.refl _, rfl, soFar.resolve_left (by simp [isInfo])⟩
      · next noInfo =>
          exact ⟨⟨rfl, rfl, fun _ isInfo => (nomatch noInfo.symm.trans isInfo),
            fun isEmitted => (nomatch pending.symm.trans isEmitted)⟩, rfl, _, rfl, rfl, rfl⟩
    exact fit.fill here id rfl pending filled.1 filled.2.1 rfl fresh_filled.1 filled.2.2 isNew
  | _ => cases performed

theorem steps_processEbpf : discipline.Steps .lines
    (Op.processEbpf bucket) (.filled line bucket cached) fun _ => .filled line bucket cached := by
  refine moves trivial fun state stages fit here choice _ after performed => ?_
  cases choice with
  | ebpf loaded cmdLine execRequestId =>
    cases performed
    obtain ⟨-, -, -, pending, fits, isNew⟩ := fit.at here
    have refined : (state.buckets bucket).Refined (fillEbpf loaded cmdLine execRequestId (state.buckets bucket)) ∧
        (fillEbpf loaded cmdLine execRequestId (state.buckets bucket)).locked = (state.buckets bucket).locked := by
      unfold fillEbpf
      split
      · next info isInfo =>
          refine ⟨⟨rfl, rfl, fun info' isInfo' => ?_, fun isEmitted => (nomatch pending.symm.trans isEmitted)⟩, rfl⟩
          cases isInfo.symm.trans isInfo'
          exact ⟨_, rfl, rfl, rfl⟩
      · exact ⟨.refl _, rfl⟩
    exact fit.fill here id rfl pending refined.1 refined.2 rfl rfl (refined.1.fits fits) isNew
  | _ => cases performed

theorem steps_fetchContainerInfo : discipline.Steps .lines
    (Op.fetchContainerInfo bucket) (.filled line bucket cached) fun _ => .filled line bucket cached := by
  refine moves trivial fun state stages fit here choice _ after performed => ?_
  cases choice with
  | container containerID info =>
    cases performed
    obtain ⟨-, -, -, pending, fits, isNew⟩ := fit.at here
    have refined : (state.buckets bucket).Refined (fillContainerInfo containerID info (state.buckets bucket)) ∧
        (fillContainerInfo containerID info (state.buckets bucket)).locked = (state.buckets bucket).locked := by
      unfold fillContainerInfo
      split
      · exact ⟨.refl _, rfl⟩
      · exact ⟨⟨rfl, rfl, fun info isInfo => ⟨info, isInfo, rfl, rfl⟩, fun _ => rfl⟩, rfl⟩
    exact fit.fill here id rfl pending refined.1 refined.2 rfl rfl (refined.1.fits fits) isNew
  | _ => cases performed

theorem steps_storeSyscall : discipline.Steps .lines
    (Op.storeSyscall bucket line) (.filled line bucket cached) fun _ => .stored line bucket cached := by
  refine moves trivial fun state stages fit here choice _ after performed => ?_
  cases performed
  obtain ⟨placed, logged, -, pending, fits, isNew⟩ := fit.at here
  obtain ⟨emitted, locked, info⟩ := addSyscall_same line.syscallKey (state.buckets bucket)
  rw [← fresh_filled.2] at placed logged
  exact fitting_lines fit (placed.congr rfl rfl rfl (modify_same emitted))
    (fit.held_same here rfl (modify_same locked)) (logged.put (logged.born_of_info fits.choose_spec.1) pending fits)
    (fit.going here id id rfl rfl) ⟨fits.congr (modify_same info bucket), isNew⟩ rfl

theorem steps_unlock : discipline.Steps .lines (Op.unlock bucket)
    (.stored line bucket cached) fun _ => if cached then .idle else .storing line bucket := by
  refine moves trivial fun state stages fit here choice _ after performed => ?_
  cases performed
  obtain ⟨-, -, -, fits, isNew⟩ := fit.at here
  obtain ⟨born, alone⟩ := fit.own (show (stages .lines).holds = some bucket by rw [here]; rfl)
  have relock := fun stage => @Fitting.relockLines state stages _ stage bucket false fit here born alone id
  cases cached with
  | true => exact relock _ id rfl rfl rfl trivial
  | false =>
    exact relock _ id rfl rfl rfl ⟨fits.congr (relocked_buckets state bucket bucket false).2.2, isNew rfl⟩

/-- The new bucket is put into the cache, which has none for the process. -/
theorem steps_set :
    discipline.Steps .lines (Op.set line.processID bucket) (.storing line bucket) fun _ => .idle := by
  refine moves trivial fun state stages fit here choice _ after performed => ?_
  cases choice with
  | victim victim =>
    cases performed
    -- Another bucket may have to give way first.
    have room : Fitting (if state.logLinesCache.lookup line.processID = none ∧
        maxCacheItems ≤ state.logLinesCache.entries.length then state.evict victim else state) stages := by
      split
      · exact fit.evict victim
      · exact fit
    unfold Buckets.set
    generalize (if state.logLinesCache.lookup line.processID = none ∧
        maxCacheItems ≤ state.logLinesCache.entries.length then state.evict victim else state) = state at room
    obtain ⟨placed, logged, -, fits, absent⟩ := room.at here
    exact fitting_lines room (placed.insert absent _) (room.held_same here rfl fun _ => rfl)
      (logged.insert (logged.born_of_info fits.choose_spec.1) fits) (room.going here id id rfl rfl) trivial rfl
  | _ => cases performed

end steps

theorem steps_deleteAll : discipline.Steps .lines Op.deleteAll .stopping fun _ => .emptied := by
  refine moves trivial fun state stages fit here choice _ after performed => ?_
  cases performed
  have kept := fit.evictAll (state.logLinesCache.entries.map Sigma.fst)
  obtain ⟨placed, logged, ending, -⟩ := kept.at here
  refine fitting_lines kept placed (kept.held_same here rfl fun _ => rfl) logged
    ⟨fun _ => trivial, fun _ => ending.ended trivial, fun closed => (nomatch (ending.closed closed).1)⟩
    (fun pid => lookup_evictAll ?_) rfl
  cases found : state.logLinesCache.lookup pid with
  | none => exact Or.inr rfl
  | some bucket => exact Or.inl (List.mem_map.mpr ⟨_, SortedMap.mem_entries.mpr found, rfl⟩)

/-- Nothing is left in the cache, and all callbacks are done. -/
theorem steps_awaitCallbacks : discipline.Steps .lines Op.awaitCallbacks .emptied fun _ => .idle := by
  refine moves trivial fun state stages fit here choice _ after performed => ?_
  obtain ⟨⟨noRemoved, noRunning⟩, ⟨⟩⟩ := Option.ite_none_right_eq_some.mp performed
  obtain ⟨placed, logged, ending, knows⟩ := fit.at here
  exact fitting_lines fit (placed.congr rfl rfl rfl fun _ => rfl) (fit.held_same here rfl fun _ => rfl)
    { logged with } ⟨fun _ => trivial, fun ended => ended.elim,
      fun _ => ⟨rfl, ending.ended trivial, noRemoved, noRunning, knows⟩⟩ trivial rfl

theorem steps_take (callback : Nat) :
    discipline.Steps (.callback callback) (Op.take callback) .idle fun bucket : Nat => .taken bucket := by
  refine moves trivial fun state stages fit here choice bucket after performed => ?_
  cases choice with
  | item index =>
    obtain ⟨bucket, taken, ⟨⟩⟩ := Option.map_eq_some_iff.mp performed
    refine fitting_callback (fit.placed.take (by rw [here]; rfl) taken _) (fit.held_same here rfl fun _ => rfl)
      { fit.logged with } ⟨fit.ending.stopped, fit.ending.ended, fun closed => ?_⟩
      (fit.knows.mono (fun _ _ => id) (fun _ => rfl) fun _ _ => rfl)
      (fun _ => by simp) fun other _ emits => List.mem_append_left _ (fit.running other emits)
    -- Nothing is removed anymore once all callbacks were waited for.
    have noRemoved := (fit.ending.closed closed).2.2.1
    rw [noRemoved] at taken
    cases taken
  | _ => cases performed

theorem Fitting.born_of_emitting {state : Buckets} {stages : Goroutine → Stage} (fit : Fitting state stages)
    (emits : (stages (.callback callback)).emitting = some bucket) :
    bucket < state.created ∧ (state.buckets bucket).emitted = false := by
  have unique := fun place => fit.placed.unique (.emitting callback) place emits
  constructor
  · by_contra unborn
    cases unique .unborn (Nat.le_of_not_lt unborn)
  · by_contra isEmitted
    cases unique .emitted (by simpa [IsAt] using isEmitted)

theorem steps_lockTaken (callback bucket : Nat) :
    discipline.Steps (.callback callback) (Op.lock bucket) (.taken bucket) fun _ => .locked bucket := by
  refine moves rfl fun state stages fit here choice _ after performed => ?_
  obtain ⟨unlocked, ⟨⟩⟩ := Option.ite_none_left_eq_some.mp performed
  have emits : (stages (.callback callback)).emitting = some bucket := by rw [here]; rfl
  exact @Fitting.relockCallback _ _ _ _ _ true fit (fit.born_of_emitting emits).1
    (fit.unheld (by simpa using unlocked)) rfl emits.symm

theorem steps_emit (callback bucket : Nat) :
    discipline.Steps (.callback callback) (Op.emit bucket) (.locked bucket) fun _ => .released bucket := by
  refine moves rfl fun state stages fit here choice _ after performed => ?_
  cases choice with
  | container _ info =>
    cases performed
    have emits : (stages (.callback callback)).emitting = some bucket := by rw [here]; rfl
    have own : (stages (.callback callback)).holds = some bucket := by rw [here]; rfl
    obtain ⟨born, pending⟩ := fit.born_of_emitting emits
    have same : ∀ other, ((state.modify bucket (markEmitted info)).buckets other).locked =
        (state.buckets other).locked ∧
        ((state.modify bucket (markEmitted info)).buckets other).processInfo = (state.buckets other).processInfo :=
      fun other => ⟨@modify_same state bucket (markEmitted info) _ LogBucket.locked rfl other,
        @modify_same state bucket (markEmitted info) _ LogBucket.processInfo rfl other⟩
    refine fitting_callback (fit.placed.emit emits info _) (fit.held_same here rfl fun other => (same other).1)
      (fit.logged.emit born pending info) ⟨fit.ending.stopped, fit.ending.ended, fit.ending.closed⟩
      (fit.knows.mono (fun _ _ => id) (fun other => (same other).2) fun other holdsOther => ?_)
      (fun emitting => absurd rfl emitting) fun other _ => fit.running other
    -- The goroutine for the lines holds another bucket.
    have different : other ≠ bucket := by
      rintro rfl
      cases fit.held.alone holdsOther own
    dsimp only
    rw [update_of_ne different]
  | _ => cases performed

theorem steps_release (callback bucket : Nat) :
    discipline.Steps (.callback callback) (Op.unlock bucket) (.released bucket) fun _ => .finishing := by
  refine moves trivial fun state stages fit here choice _ after performed => ?_
  cases performed
  obtain ⟨born, alone⟩ := fit.own (show (stages (.callback callback)).holds = some bucket by rw [here]; rfl)
  exact fit.relockCallback born alone rfl (by rw [here]; rfl)

theorem steps_finish (callback : Nat) :
    discipline.Steps (.callback callback) (Op.finish callback) .finishing fun _ => .idle := by
  refine moves trivial fun state stages fit here choice _ after performed => ?_
  cases performed
  refine fitting_callback ?_ (fit.held_same here rfl fun _ => rfl) { fit.logged with }
    ⟨fit.ending.stopped, fit.ending.ended, fun closed => ?_⟩
      (fit.knows.mono (fun _ _ => id) (fun _ => rfl) fun _ _ => rfl)
    (fun emitting => absurd rfl emitting) fun other different emits => ?_
  · rw [update_eq_self_iff.mpr (by rw [here]; rfl)]
    exact fit.placed.congr rfl rfl rfl fun _ => rfl
  · obtain ⟨isIdle, isStopped, noRemoved, noRunning, noCached⟩ := fit.ending.closed closed
    exact ⟨isIdle, isStopped, noRemoved, by simp [noRunning], noCached⟩
  · exact List.mem_filter.mpr ⟨fit.running other emits, by simpa using different⟩

end steps

section safe

/-- A bucket is locked that the line can be put into. -/
def Lockable (line : AuditLine) (result : Nat × Bool) (stage : Stage) : Prop :=
  stage = .filling line result.1 result.2

theorem safe_createBucket (line : AuditLine) :
    discipline.Safe .lines (Lockable line) (createBucket line) (.absent line) :=
  (steps_create line).safe fun _ => rfl

theorem safe_lockedLogBucket (line : AuditLine) :
    discipline.Safe .lines (Lockable line) (lockedLogBucket line) (.read line) := by
  have replaced := (steps_delete line).safe fun _ => safe_createBucket line
  refine (steps_get line).safe fun (found : Option Nat) => ?_
  cases found with
  | none => exact replaced
  | some bucket =>
    refine (steps_lock line bucket).safe fun (content : LogBucket) => ?_
    unfold checkBucket afterLock
    split
    · exact (steps_leave line bucket true).safe fun _ => safe_createBucket line
    split
    · exact (steps_leave line bucket false).safe fun _ => replaced
    · rfl

theorem safe_fillBucket (line : AuditLine) (bucket : Nat) (cached : Bool) : discipline.Safe .lines
    (fun _ stage => stage = .idle) (fillBucket line bucket cached) (.filling line bucket cached) := by
  refine (steps_fetchProcessInfo line bucket cached).safe fun _ => ?_
  refine (steps_processEbpf line bucket cached).safe fun _ => ?_
  refine (steps_fetchContainerInfo line bucket cached).safe fun _ => ?_
  refine (steps_storeSyscall line bucket cached).safe fun _ => ?_
  refine (steps_unlock line bucket cached).safe fun _ => ?_
  cases cached with
  | true => rfl
  | false => exact (steps_set line bucket).safe fun _ => rfl

theorem safe_processInput : discipline.Safe .lines (fun _ stage => stage = .idle) processInput .idle := by
  refine steps_nextLine.safe fun (input : Input) => ?_
  rcases input with _ | _ | line
  · exact steps_deleteAll.safe fun _ => steps_awaitCallbacks.safe fun _ => rfl
  · rfl
  · simp only [processLine, afterInput]
    by_cases isSeccomp : line.auditType = .seccomp
    · simp only [isSeccomp, ne_eq, not_true_eq_false, if_false, if_true]
      refine .bind ((safe_lockedLogBucket line).imp fun result stage lockable => ?_)
      rw [lockable]
      exact safe_fillBucket line result.1 result.2
    · simp only [isSeccomp, ne_eq, not_false_eq_true, if_true, if_false]
      rfl

theorem safe_onEviction (callback : Nat) :
    discipline.Safe (.callback callback) (fun _ stage => stage = .idle) (onEviction callback) .idle := by
  refine (steps_take callback).safe fun (bucket : Nat) => ?_
  refine (steps_lockTaken callback bucket).safe fun _ => ?_
  refine (steps_emit callback bucket).safe fun _ => ?_
  refine (steps_release callback bucket).safe fun _ => ?_
  exact (steps_finish callback).safe fun _ => rfl

end safe

theorem tells_initial (bucket : Nat) : Tells [] bucket .blank := by
  constructor <;> simp [LogBucket.blank, emissions]

theorem fitting_initial : Fitting Buckets.initial fun _ => .idle where
  placed := by
    have unborn : ∀ {bucket place}, IsAt Buckets.initial none (fun _ => none) bucket place → place = .unborn := by
      intro bucket place isAt
      cases place <;>
        first | rfl | simp [IsAt, Buckets.initial, LogBucket.blank, SortedMap.lookup, SortedMap.empty] at isAt
    exact ⟨fun bucket => ⟨.unborn, Nat.zero_le bucket⟩, fun _ _ first second =>
      (unborn first).trans (unborn second).symm, .nil⟩
  held := ⟨fun isHeld => (nomatch isHeld), fun isHeld => (nomatch isHeld)⟩
  logged := by
    constructor <;> simp [Buckets.initial, Stage.fresh, Stage.unput, SortedMap.lookup, SortedMap.empty, putLines,
      NoLatePut, tells_initial]
  ending := ⟨by simp [Buckets.initial], fun ended => ended.elim, by simp [Buckets.initial]⟩
  knows := trivial
  running := by simp [Stage.emitting]

/-- The goroutine for the lines waits for the next one, or is done. -/
def Waiting (world : World enricher Goroutine) : Prop :=
  (world.threads .lines).next? = none ∨ (world.threads .lines).next? = some .nextLine

/-- A callback is about to emit the bucket. -/
def EmissionDue (world : World enricher Goroutine) (bucket : Nat) : Prop :=
  ∃ callback, (world.threads (.callback callback)).next? = some (.lock bucket) ∨
    (world.threads (.callback callback)).next? = some (.emit bucket)

/-- Every syscall is emitted once. -/
structure EmitsOnce (world : World enricher Goroutine) : Prop where
  /-- Every seccomp line, except for the one that is being processed, was put into one bucket. -/
  lines : ∃ current : Option AuditLine, putLines world.state.log ++ current.toList = world.state.accepted ∧
    (Waiting world → current = none)
  stored : ∀ line bucket, .put line bucket ∈ world.state.log →
    line.syscallKey ∈ (world.state.buckets bucket).syscallIds
  notLate : NoLatePut world.state.log
  /-- What is emitted is all that was put into the bucket. -/
  content : ∀ bucket content, .emitted bucket content ∈ world.state.log → ∀ key, key ∈ content.syscallIds ↔
    ∃ line, .put line bucket ∈ world.state.log ∧ line.syscallKey = key
  alike : ∀ line line' bucket, .put line bucket ∈ world.state.log → .put line' bucket ∈ world.state.log →
    line.processID = line'.processID ∧ line.executable = line'.executable
  cached : Waiting world → ∀ line bucket, .put line bucket ∈ world.state.log → .cached bucket ∈ world.state.log
  atMostOnce : ∀ bucket, (emissions bucket world.state.log).length ≤ 1
  /-- A bucket from the cache is emitted, still cached, or about to be emitted. -/
  accounted : ∀ bucket, .cached bucket ∈ world.state.log → (emissions bucket world.state.log).length = 1 ∨
    (∃ pid, world.state.logLinesCache.lookup pid = some bucket) ∨ bucket ∈ world.state.removed ∨
    EmissionDue world bucket
  onlyCached : ∀ bucket content, .emitted bucket content ∈ world.state.log → .cached bucket ∈ world.state.log
  /-- At the end, all of them are emitted. -/
  closed : world.state.closed = true → ∀ bucket, .cached bucket ∈ world.state.log →
    (emissions bucket world.state.log).length = 1

section emitted

variable {world : World enricher Goroutine} {stages : Goroutine → Stage}

theorem stage_of_waiting (noted : discipline.Noted world stages) (waiting : Waiting world) :
    stages .lines = .idle := by
  rcases waiting with done | waits
  · exact noted.idle done
  · exact noted.agrees waits

theorem emissionDue_of_stage (noted : discipline.Noted world stages) {bucket callback : Nat}
    (emits : (stages (.callback callback)).emitting = some bucket) : EmissionDue world bucket := by
  refine ⟨callback, ?_⟩
  cases comes : (world.threads (.callback callback)).next? with
  | none =>
    rw [noted.idle comes] at emits
    cases emits
  | some op =>
    have agrees : Agrees op (stages (.callback callback)) := noted.agrees comes
    cases stage : stages (.callback callback) with
    | taken other =>
      rw [stage] at emits agrees
      cases emits
      left
      cases op <;> first | (cases agrees; rfl) | cases agrees
    | locked other =>
      rw [stage] at emits agrees
      cases emits
      right
      cases op <;> first | (cases agrees; rfl) | cases agrees
    | _ =>
      rw [stage] at emits
      cases emits

theorem place_of_cached {state : Buckets} (fit : Fitting state stages) {bucket : Nat}
    (isCached : .cached bucket ∈ state.log) :
    (emissions bucket state.log).length = 1 ∨ (∃ pid, state.logLinesCache.lookup pid = some bucket) ∨
      bucket ∈ state.removed ∨ ∃ callback, (stages (.callback callback)).emitting = some bucket := by
  obtain ⟨born, notFresh⟩ := (fit.logged.cached bucket).mp isCached
  obtain ⟨place, isPlace⟩ := fit.placed.somewhere bucket
  cases place with
  | unborn => exact absurd born (Nat.not_lt.mpr isPlace)
  | fresh => exact absurd isPlace notFresh
  | cached pid => exact Or.inr (Or.inl ⟨pid, isPlace⟩)
  | removed => exact Or.inr (Or.inr (Or.inl isPlace))
  | emitting callback => exact Or.inr (Or.inr (Or.inr ⟨callback, isPlace⟩))
  | emitted =>
    left
    rw [(fit.logged.tells bucket).once, show (state.buckets bucket).emitted = true from isPlace]
    rfl

/-- The goroutines fit to the state, however they follow each other. -/
theorem noted_of_reach (reach : World.Reach Goroutine.code (fun _ _ => True) (.idle Buckets.initial) world) :
    ∃ stages, discipline.Noted world stages := by
  refine Discipline.noted_of_reach reach fitting_initial (fun goroutine => ?_) (fun _ _ _ _ _ _ _ _ => trivial) ?_
  · cases goroutine with
    | lines => exact safe_processInput
    | callback number => exact safe_onEviction number
  · intro world stages pids after _ noted occurred
    cases occurred
    exact Fitting.evictAll noted.inv pids

end emitted

/-- However the lines, the evictions and the callbacks follow each other, every syscall of a seccomp line is put
into one bucket and emitted once. -/
theorem syscalls_emitted_once {world : World enricher Goroutine}
    (reach : World.Reach Goroutine.code (fun _ _ => True) (.idle Buckets.initial) world) : EmitsOnce world := by
  obtain ⟨stages, noted⟩ := noted_of_reach reach
  have fit : Fitting world.state stages := noted.inv
  have logged := fit.logged
  constructor
  case lines =>
    refine ⟨(stages .lines).unput, logged.lines, fun waiting => ?_⟩
    rw [stage_of_waiting noted waiting]
    rfl
  case stored => exact fun line bucket isPut => ((logged.tells bucket).keys _).mpr ⟨line, isPut, rfl⟩
  case notLate => exact logged.ordered
  case content =>
    intro bucket content isEmitted key
    rw [((logged.tells bucket).content content isEmitted).1]
    exact (logged.tells bucket).keys key
  case alike =>
    intro line line' bucket isPut isPut'
    obtain ⟨info, isInfo, samePid, sameExecutable⟩ := (logged.tells bucket).fits line isPut
    obtain ⟨info', isInfo', samePid', sameExecutable'⟩ := (logged.tells bucket).fits line' isPut'
    rw [isInfo] at isInfo'
    cases isInfo'
    exact ⟨samePid.symm.trans samePid', sameExecutable.symm.trans sameExecutable'⟩
  case cached =>
    intro waiting line bucket isPut
    refine (logged.cached bucket).mpr ⟨?_, ?_⟩
    · refine logged.born fun isBlank => ?_
      obtain ⟨info, isInfo, _⟩ := (logged.tells bucket).fits line isPut
      rw [isBlank] at isInfo
      cases isInfo
    · rw [stage_of_waiting noted waiting]
      simp [Stage.fresh]
  case atMostOnce =>
    intro bucket
    rw [(logged.tells bucket).once]
    exact Bool.toNat_le _
  case accounted =>
    intro bucket isCached
    rcases place_of_cached fit isCached with emitted | cached | removed | ⟨callback, emits⟩
    · exact Or.inl emitted
    · exact Or.inr (Or.inl cached)
    · exact Or.inr (Or.inr (Or.inl removed))
    · exact Or.inr (Or.inr (Or.inr (emissionDue_of_stage noted emits)))
  case onlyCached =>
    intro bucket content isEmitted
    have flagged : (world.state.buckets bucket).emitted = true := by
      by_contra pending
      exact (logged.tells bucket).notEmitted (by simpa using pending) content isEmitted
    have unique := fun place => fit.placed.unique .emitted place flagged
    refine (logged.cached bucket).mpr ⟨?_, fun isFresh => ?_⟩
    · by_contra unborn
      cases unique .unborn (Nat.le_of_not_lt unborn)
    · cases unique .fresh isFresh
  case closed =>
    intro closed bucket isCached
    obtain ⟨_, _, noRemoved, noRunning, noCached⟩ := fit.ending.closed closed
    rcases place_of_cached fit isCached with emitted | ⟨pid, cached⟩ | removed | ⟨callback, emits⟩
    · exact emitted
    · rw [noCached pid] at cached
      cases cached
    · rw [noRemoved] at removed
      cases removed
    · have running := fit.running callback (by rw [emits]; simp)
      rw [noRunning] at running
      cases running

section shell

/-- A line of a process with the PID 7. -/
def shellLine (executable : String) (systemCallID : Int) : AuditLine :=
  ⟨.seccomp, 7, "", systemCallID, executable, "c000003e", none, none, "", "", "", "", "", "", "", "", ""⟩

def steps (goroutine : Goroutine) (choices : List Choice) : List (Act enricher Goroutine) :=
  choices.map fun choice => .step goroutine choice

/-- A line is processed: the choices that decide on the bucket come first, and it is filled then. -/
def processed (line : AuditLine) (bucket : List Choice) : List (Act enricher Goroutine) :=
  .start .lines :: steps .lines ([.input (.line (some line))] ++ bucket ++
    [.process "" none, .ebpf false none none, .container "" none, .expired false, .expired false, .victim 0])

/-- A shell executes another program after the first line, and the log ends after the next one. -/
def shellRun : List (Act enricher Goroutine) :=
  processed (shellLine "/bin/sh" 0) (List.replicate 3 (.expired false)) ++
  processed (shellLine "/bin/ls" 1) (List.replicate 5 (.expired false)) ++
  .start .lines :: steps .lines [.input .ended, .expired false] ++
  .start (.callback 0) :: steps (.callback 0) [.item 0] ++
  .start (.callback 1) :: steps (.callback 1) [.item 0, .expired false, .container "" none, .expired false,
  .expired false] ++
  steps (.callback 0) [.expired false, .container "" none, .expired false, .expired false] ++
  steps .lines [.expired false]

/-- Both buckets were emitted, and nothing is left. -/
theorem shell_emitted : ∃ world : World enricher Goroutine,
    World.Reach Goroutine.code (fun _ _ => True) (.idle Buckets.initial) world ∧ world.state.closed = true ∧
      world.state.accepted = [shellLine "/bin/sh" 0, shellLine "/bin/ls" 1] ∧
      (emissions 0 world.state.log).length = 1 ∧ (emissions 1 world.state.log).length = 1 := by
  have ran : ((World.idle Buckets.initial).run Goroutine.code (fun _ _ => true) shellRun).any (fun world =>
      world.state.closed = true ∧ world.state.accepted = [shellLine "/bin/sh" 0, shellLine "/bin/ls" 1] ∧
      .cached 0 ∈ world.state.log ∧ .cached 1 ∈ world.state.log) = true := by
    decide
  obtain ⟨world, reach, ends⟩ := World.exists_of_any ran fun _ _ _ => trivial
  obtain ⟨closed, accepted, first, second⟩ := of_decide_eq_true ends
  have once := syscalls_emitted_once reach
  exact ⟨world, reach, closed, accepted, once.closed closed 0 first, once.closed closed 1 second⟩

end shell

end SecurityProfiles.Enricher
