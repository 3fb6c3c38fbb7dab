import SecurityProfiles.Library.Threads

namespace SecurityProfiles.Bpf

open Threads Function

abbrev Pid := Nat
abbrev Channel := Nat

/-- The exits that are remembered, the channel that is registered for each pid, and the channels that were made and
closed. -/
structure Exits where
  recentExits : Pid → Bool
  exitWaiters : Pid → Option Channel
  made : Nat
  closed : Channel → Bool

def Exits.initial : Exits where
  recentExits _ := false
  exitWaiters _ := none
  made := 0
  closed _ := false

namespace Exits

inductive Op where
  | loadOrStore (pid : Pid)
  | getRecent (pid : Pid)
  | select (done : Channel)
  | compareAndDelete (pid : Pid) (done : Channel)
  | setRecent (pid : Pid)
  | loadAndDelete (pid : Pid)
  | close (done : Channel)
deriving DecidableEq

abbrev Answer : Op → Type
  | .loadOrStore _ => Channel
  | .getRecent _ => Bool
  | .select _ => Bool
  | .compareAndDelete _ _ => Unit
  | .setRecent _ => Unit
  | .loadAndDelete _ => Option Channel
  | .close _ => Unit

/-- One operation. The choice tells whether a waiter that waits is cancelled; one that is not goes on when its
channel is closed. -/
def perform : (op : Op) → Bool → Exits → Option (Answer op × Exits)
  | .loadOrStore pid, _, exits =>
    match exits.exitWaiters pid with
    | some done => some (done, exits)
    | none => some (exits.made,
        { exits with exitWaiters := update exits.exitWaiters pid (some exits.made), made := exits.made + 1 })
  | .getRecent pid, _, exits => some (exits.recentExits pid, exits)
  | .select done, cancelled, exits =>
    if cancelled then some (false, exits) else if exits.closed done then some (true, exits) else none
  | .compareAndDelete pid done, _, exits =>
    some ((), if exits.exitWaiters pid = some done then
      { exits with exitWaiters := update exits.exitWaiters pid none } else exits)
  | .setRecent pid, _, exits => some ((), { exits with recentExits := update exits.recentExits pid true })
  | .loadAndDelete pid, _, exits =>
    some (exits.exitWaiters pid, { exits with exitWaiters := update exits.exitWaiters pid none })
  | .close done, _, exits => some ((), { exits with closed := update exits.closed done true })

end Exits

def exits : Interface where
  State := Exits
  Op := Exits.Op
  Answer := Exits.Answer
  Choice := Bool
  Event := Empty
  perform := Exits.perform
  occur event _ := nomatch event

instance : DecidableEq exits.Op := inferInstanceAs (DecidableEq Exits.Op)

/-- Wait for a pid to exit; the result tells whether it did, or the waiting was cancelled. -/
def waitForPidExit (pid : Pid) : Prog exits Bool :=
  .call (.loadOrStore pid) fun done =>
    .call (.getRecent pid) fun (exited : Bool) =>
      if exited then .call (.compareAndDelete pid done) fun _ => .ret true
      else .call (.select done) fun exited => .call (.compareAndDelete pid done) fun _ => .ret exited

def handleExitEvent (pid : Pid) : Prog exits Unit :=
  .call (.setRecent pid) fun _ =>
    .call (.loadAndDelete pid) fun waiter =>
      match waiter with
      | some done => .call (.close done) .ret
      | none => .ret ()

/-- Any number of waiters for each pid, and the handling of its exit events one after the other. -/
inductive Thread where
  | waiter (number : Nat) (pid : Pid)
  | handler (pid : Pid)
deriving DecidableEq

def Thread.code : Thread → Prog exits Unit
  | .waiter _ pid => do
      let _ ← waitForPidExit pid
  | .handler pid => handleExitEvent pid

/-- The waiter has registered, and now looks for the exit or waits on the channel. -/
def Exits.Op.Waits (done : Channel) : Exits.Op → Prop
  | .getRecent _ => True
  | .select done' => done' = done
  | _ => False

/-- No other waiter for the pid may be waiting on the channel. -/
def Alone (world : World exits Thread) (number : Nat) (pid : Pid) (done : Channel) : Prop :=
  ∀ other, other ≠ number → ∀ op, (world.threads (.waiter other pid)).next? = some op → ¬op.Waits done

/-- A waiter removes its channel only if no other one waits on it. -/
def DeregistersAlone (world : World exits Thread) : Act exits Thread → Prop
  | .step (.waiter number pid) _ => ∀ done, (world.threads (.waiter number pid)).next? =
    some (.compareAndDelete pid done) → world.state.exitWaiters pid = some done → Alone world number pid done
  | _ => True

section growth

variable {code : Thread → Prog exits Unit} {permits : World exits Thread → Act exits Thread → Prop}

/-- Exits are not forgotten, and closed channels stay closed. -/
def Exits.Grows (before after : Exits) : Prop :=
  (∀ pid, before.recentExits pid = true → after.recentExits pid = true) ∧
    ∀ done, before.closed done = true → after.closed done = true

theorem Exits.perform_grows {op : Exits.Op} {cancelled : Bool} {before after : Exits} {answer : Exits.Answer op}
    (performed : Exits.perform op cancelled before = some (answer, after)) : before.Grows after := by
  have kept : ∀ {flags : Nat → Bool} {place other : Nat}, flags other = true →
      update flags place true other = true := by
    intro flags place other set
    by_cases same : other = place
    · rw [same, update_self]
    · rwa [update_of_ne same]
  cases op <;> simp only [Exits.perform] at performed
  case loadOrStore pid => split at performed <;> cases performed <;> exact ⟨fun _ => id, fun _ => id⟩
  case getRecent pid => cases performed; exact ⟨fun _ => id, fun _ => id⟩
  case select done =>
    split at performed
    · cases performed; exact ⟨fun _ => id, fun _ => id⟩
    · split at performed <;> cases performed; exact ⟨fun _ => id, fun _ => id⟩
  case compareAndDelete pid done => cases performed; split <;> exact ⟨fun _ => id, fun _ => id⟩
  case setRecent pid => cases performed; exact ⟨fun _ => kept, fun _ => id⟩
  case loadAndDelete pid => cases performed; exact ⟨fun _ => id, fun _ => id⟩
  case close done => cases performed; exact ⟨fun _ => id, fun _ => kept⟩

theorem grows_of_reach {first world : World exits Thread} (reach : World.Reach code permits first world) :
    first.state.Grows world.state := by
  refine reach.keeps (fun world => Exits.Grows first.state world.state) (fun world after act grown _ acted => ?_)
    ⟨fun _ => id, fun _ => id⟩
  cases act with
  | start thread =>
    simp only [World.act] at acted
    split at acted <;> cases acted
    exact grown
  | event event => cases event
  | step thread cancelled =>
    simp only [World.act] at acted
    split at acted
    · cases acted
    · obtain ⟨⟨answer, state⟩, performed, rfl⟩ := Option.map_eq_some_iff.mp acted
      have step := Exits.perform_grows performed
      exact ⟨fun pid => step.1 pid ∘ grown.1 pid, fun done => step.2 done ∘ grown.2 done⟩

end growth

inductive Phase where
  | idle
  | registered (done : Channel)
  | waiting (done : Channel)
  | recorded
  | closing (done : Channel)

/-- The channel of a waiter that has registered. -/
def Phase.channel : Phase → Option Channel
  | .registered done => some done
  | .waiting done => some done
  | _ => none

/-- What concerns one pid: whether its exit is remembered, the channel that is registered, and where the handler and
the waiters are. -/
structure View where
  recent : Bool
  registered : Option Channel
  handler : Phase
  waiters : Nat → Phase

def view (exits : Exits) (phases : Thread → Phase) (pid : Pid) : View :=
  ⟨exits.recentExits pid, exits.exitWaiters pid, phases (.handler pid), fun number => phases (.waiter number pid)⟩

/-- The channel of a waiter is registered, or closed, or about to be closed. If an exit is remembered and a waiter
waits nevertheless, its channel is not registered any more unless the exit is just being handled. -/
structure View.Fits (made : Nat) (closed : Channel → Bool) (view : View) : Prop where
  known : ∀ done, view.registered = some done → done < made
  made : ∀ number done, (view.waiters number).channel = some done → done < made
  reached : ∀ number done, (view.waiters number).channel = some done →
    view.registered = some done ∨ closed done = true ∨ view.handler = .closing done
  handling : ∀ number done, view.waiters number = .waiting done → view.recent = true →
    view.registered = some done → view.handler = .recorded

def Inv (exits : Exits) (phases : Thread → Phase) : Prop :=
  ∀ pid, (view exits phases pid).Fits exits.made exits.closed

def discipline : Discipline exits Thread Phase where
  inv := Inv
  agrees op phase :=
    match op with
    | .getRecent _ => ∃ done, phase = .registered done
    | .select done => phase = .waiting done
    | _ => phase.channel = none
  idle := .idle
  allows exits phases thread op _ :=
    match thread, op with
    | .waiter number pid, .compareAndDelete pid' done => pid' = pid → exits.exitWaiters pid = some done →
        ∀ other, other ≠ number → (phases (.waiter other pid)).channel ≠ some done
    | _, _ => True

section inv

variable {exits after : Exits} {phases phases' : Thread → Phase} {number : Nat} {pid : Pid} {phase : Phase}

variable (inv : Inv exits phases)
include inv

/-- An operation changes the view of one pid only. -/
theorem Inv.change (pid : Pid) (apart : ∀ other, other ≠ pid → view after phases' other = view exits phases other)
    (more : exits.made ≤ after.made) (kept : ∀ done, exits.closed done = true → after.closed done = true)
    (here : (view after phases' pid).Fits after.made after.closed) : Inv after phases' := by
  intro other
  by_cases same : other = pid
  · exact same ▸ here
  · obtain ⟨known, made, reached, handling⟩ := inv other
    rw [apart other same]
    exact ⟨fun done isKnown => Nat.lt_of_lt_of_le (known done isKnown) more,
      fun number done held => Nat.lt_of_lt_of_le (made number done held) more,
      fun number done held => (reached number done held).imp_right (Or.imp_left (kept done)), handling⟩

/-- A waiter goes on, with the channel it had or the one that is registered. -/
theorem Inv.waiter
    (same : ∀ done, phase.channel = some done → (phases (.waiter number pid)).channel = some done ∨
      exits.exitWaiters pid = some done)
    (waits : ∀ done, phase = .waiting done → exits.recentExits pid = false) :
    Inv exits (update phases (.waiter number pid) phase) := by
  obtain ⟨known, made, reached, handling⟩ := inv pid
  refine inv.change pid (fun other different => by simp [view, different]) (Nat.le_refl _) (fun _ => id)
    ⟨known, fun other done held => ?_, fun other done held => ?_, fun other done held recent registered => ?_⟩ <;>
  by_cases here : other = number
  · subst here
    exact (same done (by simpa [view] using held)).elim (made other done) (known done)
  · exact made other done (by simpa [view, here] using held)
  · subst here
    simpa [view] using (same done (by simpa [view] using held)).elim (reached other done) Or.inl
  · simpa [view] using reached other done (by simpa [view, here] using held)
  · subst here
    simp [view, waits done (by simpa [view] using held)] at recent
  · simpa [view] using handling other done (by simpa [view, here] using held) recent registered

theorem Inv.make (none' : exits.exitWaiters pid = none) :
    Inv { exits with exitWaiters := update exits.exitWaiters pid (some exits.made), made := exits.made + 1 }
      (update phases (.waiter number pid) (.registered exits.made)) := by
  obtain ⟨_, made, reached, handling⟩ := inv pid
  refine inv.change pid (fun other different => by simp [view, different]) (Nat.le_succ _) (fun _ => id)
    ⟨fun done registered => ?_, fun other done held => ?_, fun other done held => ?_,
      fun other done held _ registered => ?_⟩
  · obtain rfl : exits.made = done := by simpa [view] using registered
    exact Nat.lt_succ_self _
  all_goals by_cases here : other = number
  · obtain rfl : exits.made = done := by simpa [view, here, Phase.channel] using held
    exact Nat.lt_succ_self _
  · exact Nat.lt_succ_of_lt (made other done (by simpa [view, here] using held))
  · exact Or.inl (by simpa [view, here, Phase.channel] using held)
  · exact Or.inr (by simpa [view, none'] using reached other done (by simpa [view, here] using held))
  · simp [view, here] at held
  · have waits : phases (.waiter other pid) = .waiting done := by simpa [view, here] using held
    obtain rfl : exits.made = done := by simpa [view] using registered
    exact absurd (made other exits.made (by simp [view, waits, Phase.channel])) (Nat.lt_irrefl _)

theorem Inv.remove {done : Channel} (registered : exits.exitWaiters pid = some done)
    (leaves : (phases (.waiter number pid)).channel = none)
    (alone : ∀ other, other ≠ number → (phases (.waiter other pid)).channel ≠ some done) :
    Inv { exits with exitWaiters := update exits.exitWaiters pid none } phases := by
  obtain ⟨_, made, reached, _⟩ := inv pid
  refine inv.change pid (fun other different => by simp [view, different]) (Nat.le_refl _) (fun _ => id)
    ⟨by simp [view], made, fun other done' held => ?_, by simp [view]⟩
  refine (reached other done' held).elim (fun registered' => ?_) Or.inr
  obtain rfl : done = done' := Option.some.inj (registered.symm.trans registered')
  by_cases here : other = number
  · cases (here ▸ leaves).symm.trans held
  · exact absurd held (alone other here)

theorem Inv.record (idle : phases (.handler pid) = .idle) :
    Inv { exits with recentExits := update exits.recentExits pid true }
      (update phases (.handler pid) .recorded) := by
  obtain ⟨known, made, reached, _⟩ := inv pid
  refine inv.change pid (fun other different => by simp [view, different]) (Nat.le_refl _) (fun _ => id)
    ⟨known, by simpa [view] using made, fun other done held => ?_, by simp [view]⟩
  simpa [view, idle] using reached other done (by simpa [view] using held)

theorem Inv.take (recorded : phases (.handler pid) = .recorded)
    (taken : ∀ done, exits.exitWaiters pid = some done → phase = .closing done) :
    Inv { exits with exitWaiters := update exits.exitWaiters pid none }
      (update phases (.handler pid) phase) := by
  obtain ⟨_, made, reached, _⟩ := inv pid
  refine inv.change pid (fun other different => by simp [view, different]) (Nat.le_refl _) (fun _ => id)
    ⟨by simp [view], by simpa [view] using made, fun other done held => Or.inr ?_, by simp [view]⟩
  rcases reached other done (by simpa [view] using held) with registered | closed | closing
  · exact Or.inr (by simpa [view] using taken done registered)
  · exact Or.inl closed
  · cases recorded.symm.trans closing

theorem Inv.close {done : Channel} (closing : phases (.handler pid) = .closing done) :
    Inv { exits with closed := update exits.closed done true }
      (update phases (.handler pid) .idle) := by
  have kept : ∀ other, exits.closed other = true → update exits.closed done true other = true := by
    intro other closed
    by_cases same : other = done <;> simp [same, closed]
  obtain ⟨known, made, reached, handling⟩ := inv pid
  refine inv.change pid (fun other different => by simp [view, different]) (Nat.le_refl _) kept
    ⟨known, by simpa [view] using made, fun other done' held => ?_, fun other done' waits recent registered => ?_⟩
  · rcases reached other done' (by simpa [view] using held) with registered | closed | closing'
    · exact Or.inl registered
    · exact Or.inr (Or.inl (kept done' closed))
    · cases closing.symm.trans closing'
      exact Or.inr (Or.inl (update_self ..))
  · cases closing.symm.trans (handling other done' (by simpa [view] using waits) recent registered)

end inv

theorem Exits.compareAndDelete_cases {pid : Pid} {done : Channel} {cancelled : Bool} {before after : Exits}
    {answer : Unit} (performed : Exits.perform (.compareAndDelete pid done) cancelled before =
      some (answer, after)) :
    (before.exitWaiters pid = some done ∧
      after = { before with exitWaiters := update before.exitWaiters pid none }) ∨ after = before := by
  cases performed
  by_cases registered : before.exitWaiters pid = some done
  · exact Or.inl ⟨registered, if_pos registered⟩
  · exact Or.inr (if_neg registered)

theorem safe_leave {number : Nat} {pid : Pid} {done : Channel} (exited : Bool) :
    discipline.Safe (.waiter number pid) (fun _ phase => phase = .idle)
      (.call (.compareAndDelete pid done) fun _ => .ret exited : Prog exits Bool) .idle := by
  refine ⟨rfl, fun state phases inv here cancelled answer after allowed performed => ⟨.idle, ?_, rfl⟩⟩
  have same : update phases (.waiter number pid) .idle = phases := by rw [← here, update_eq_self]
  rw [same]
  rcases @Exits.compareAndDelete_cases pid done cancelled state after answer performed with ⟨registered, rfl⟩ | rfl
  · exact Inv.remove inv registered (by rw [here]; rfl) (allowed rfl registered)
  · exact inv

theorem safe_waitForPidExit (number : Nat) (pid : Pid) :
    discipline.Safe (.waiter number pid) (fun _ phase => phase = .idle) (waitForPidExit pid) .idle := by
  refine ⟨rfl, fun state phases inv here cancelled done after _ performed => ⟨.registered done, ?_, ?_⟩⟩
  · simp only [exits, Exits.perform] at performed
    split at performed
    · next registered =>
        cases performed
        refine Inv.waiter inv (fun other same => Or.inr ?_) (fun _ same => nomatch same)
        rwa [← Option.some.inj same]
    · next none' =>
        cases performed
        exact Inv.make inv none'
  refine ⟨⟨done, rfl⟩, fun state phases inv here cancelled exited after _ performed => ?_⟩
  cases performed
  by_cases exited : state.recentExits pid = true
  · refine ⟨.idle, Inv.waiter inv (fun _ same => nomatch same) (fun _ same => nomatch same), ?_⟩
    simp only [if_pos exited]
    exact safe_leave true
  refine ⟨.waiting done, Inv.waiter inv (fun other same => Or.inl ?_) (fun _ _ => Bool.eq_false_iff.mpr exited), ?_⟩
  · rw [here]
    exact same
  simp only [if_neg exited]
  refine ⟨rfl, fun state phases inv here cancelled exited after _ performed => ⟨.idle, ?_, safe_leave exited⟩⟩
  have unchanged : after = state := by
    simp only [exits, Exits.perform] at performed
    split at performed
    · cases performed; rfl
    · split at performed <;> cases performed; rfl
  rw [unchanged]
  exact Inv.waiter inv (fun _ same => nomatch same) (fun _ same => nomatch same)

theorem safe_handleExitEvent (pid : Pid) :
    discipline.Safe (.handler pid) (fun _ phase => phase = .idle) (handleExitEvent pid) .idle := by
  refine ⟨rfl, fun state phases inv here _ _ after _ performed => ⟨.recorded, ?_, ?_⟩⟩
  · cases performed
    exact Inv.record inv here
  refine ⟨rfl, fun state phases inv here _ waiter after _ performed => ?_⟩
  cases performed
  cases registered : state.exitWaiters pid with
  | none => exact ⟨.idle, Inv.take inv here (by simp [registered]), rfl⟩
  | some done =>
    refine ⟨.closing done, Inv.take inv here (by simp [registered]), rfl, ?_⟩
    intro state phases inv here _ _ after _ performed
    cases performed
    exact ⟨.idle, Inv.close inv here, rfl⟩

/-- The waiters of every process fit the table throughout a run in which each waiter removes its own channel
only. -/
theorem inv_of_reach {world : World exits Thread}
    (reach : World.Reach Thread.code DeregistersAlone (.idle .initial) world) :
    ∃ phases, discipline.Noted world phases := by
  refine Discipline.noted_of_reach reach ?_ (fun thread => ?_) ?_ (fun _ _ event => nomatch event)
  · exact fun _ => ⟨fun _ same => (nomatch same), fun _ _ same => (nomatch same), fun _ _ same => (nomatch same),
      fun _ _ same => (nomatch same)⟩
  · cases thread with
    | waiter number pid => exact .bind ((safe_waitForPidExit number pid).imp fun _ _ idle => idle)
    | handler pid => exact safe_handleExitEvent pid
  · intro world phases thread cancelled op permitted noted comes
    cases thread with
    | handler pid => trivial
    | waiter number pid =>
      cases op with
      | compareAndDelete pid' done =>
        intro samePid registered other different held
        have alone := permitted done (samePid ▸ comes) registered other different
        cases comes' : (world.threads (.waiter other pid)).next? with
        | none =>
          rw [noted.idle comes'] at held
          cases held
        | some op =>
          have agrees := noted.agrees comes'
          have notWaiting := alone op comes'
          cases op with
          | getRecent pid'' => exact notWaiting trivial
          | select done' =>
            rw [show phases (.waiter other pid) = .waiting done' from agrees] at held
            exact notWaiting (Option.some.inj held)
          | _ =>
            rw [show (phases (.waiter other pid)).channel = none from agrees] at held
            cases held
      | _ => trivial

/-- If waiters remove only channels that nobody else waits on: once an exit was handled, every waiter that waits for
it has its channel closed, and every waiter that is about to look for it finds it. -/
theorem exit_reaches_waiters {world : World exits Thread}
    (reach : World.Reach Thread.code DeregistersAlone (.idle .initial) world) {pid : Pid}
    (recorded : world.state.recentExits pid = true) (handled : (world.threads (.handler pid)).next? = none)
    (number : Nat) :
    (∀ done, (world.threads (.waiter number pid)).next? = some (.select done) →
      ∀ later, World.Reach Thread.code DeregistersAlone world later → later.state.closed done = true) ∧
    ((world.threads (.waiter number pid)).next? = some (.getRecent pid) →
      ∀ later, World.Reach Thread.code DeregistersAlone world later → later.state.recentExits pid = true) := by
  obtain ⟨phases, noted⟩ := inv_of_reach reach
  have inv : Inv world.state phases := noted.inv
  have idle : phases (.handler pid) = .idle := noted.idle handled
  refine ⟨fun done waits later further => ?_, fun _ later further => (grows_of_reach further).1 pid recorded⟩
  refine (grows_of_reach further).2 done ?_
  have phase : phases (.waiter number pid) = .waiting done := noted.agrees waits
  rcases (inv pid).reached number done (by simp [view, phase, Phase.channel]) with registered | closed | closing
  · have handling := (inv pid).handling number done phase recorded registered
    cases idle.symm.trans handling
  · exact closed
  · cases idle.symm.trans closing

section runs

def firstWaiter : Thread := .waiter 0 7
def secondWaiter : Thread := .waiter 1 7

def bothWait : List (Act exits Thread) :=
  [.start firstWaiter, .step firstWaiter false, .step firstWaiter false,
    .start secondWaiter, .step secondWaiter false, .step secondWaiter false]

def processExits : List (Act exits Thread) :=
  [.start (.handler 7), .step (.handler 7) false, .step (.handler 7) false, .step (.handler 7) false]

/-- The step removes no channel. -/
def removesNothing (world : World exits Thread) : Act exits Thread → Bool
  | .step thread _ =>
    match (world.threads thread).next? with
    | some (.compareAndDelete _ _) => false
    | _ => true
  | _ => true

/-- An exit that was handled, with a waiter that waits on the channel. -/
def leftWaiting (closed : Bool) (world : World exits Thread) : Bool :=
  world.state.recentExits 7 && (world.threads (.handler 7)).next?.isNone &&
    decide ((world.threads secondWaiter).next? = some (.select 0)) && (world.state.closed 0 == closed)

theorem both_waiters_woken : ∃ world, World.Reach Thread.code DeregistersAlone (.idle .initial) world ∧
    (world.threads secondWaiter).next? = some (.select 0) ∧ world.state.closed 0 = true := by
  have ran : ((World.idle Exits.initial).run Thread.code removesNothing (bothWait ++ processExits)).any
      (leftWaiting true) = true := by decide
  have sound : ∀ world act, removesNothing world act = true → DeregistersAlone world act := by
    intro world act removes
    cases act with
    | start thread => trivial
    | event event => trivial
    | step thread cancelled =>
      cases thread with
      | handler pid => trivial
      | waiter number pid =>
        intro done comes
        simp [removesNothing, comes] at removes
  obtain ⟨world, reach, left⟩ := World.exists_of_any ran sound
  simp only [leftWaiting, Bool.and_eq_true, decide_eq_true_eq, beq_iff_eq, Option.isNone_iff_eq_none] at left
  obtain ⟨⟨⟨recorded, handled⟩, waits⟩, _⟩ := left
  exact ⟨world, reach, waits, (exit_reaches_waiters reach recorded handled 1).1 0 waits world .start⟩

/-- The first waiter is cancelled and takes the channel of the second one away, which then misses the exit. -/
theorem cancelled_waiter_takes_channel : ∃ world, World.Reach Thread.code (fun _ _ => True) (.idle .initial) world ∧
    world.state.recentExits 7 = true ∧ (world.threads (.handler 7)).next? = none ∧
    (world.threads secondWaiter).next? = some (.select 0) ∧ world.state.closed 0 = false := by
  have ran : ((World.idle Exits.initial).run Thread.code (fun _ _ => true)
      (bothWait ++ [.step firstWaiter true, .step firstWaiter false] ++ processExits.take 3)).any
        (leftWaiting false) = true := by decide
  have sound : ∀ (world : World exits Thread) (act : Act exits Thread), true = true → True := fun _ _ _ => trivial
  obtain ⟨world, reach, left⟩ := World.exists_of_any ran sound
  simp only [leftWaiting, Bool.and_eq_true, decide_eq_true_eq, beq_iff_eq, Option.isNone_iff_eq_none] at left
  obtain ⟨⟨⟨recorded, handled⟩, waits⟩, closed⟩ := left
  exact ⟨world, reach, recorded, handled, waits, closed⟩

end runs

end SecurityProfiles.Bpf
