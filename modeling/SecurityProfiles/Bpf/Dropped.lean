import SecurityProfiles.Library.Threads

namespace SecurityProfiles.Bpf

open Threads List Function

structure NewPidEvent where
  pid : Nat
  mntns : Nat
  key : Nat
  generation : Nat
  seenAt : Nat
deriving DecidableEq

structure DroppedPid where
  pid : Nat
  key : Nat
deriving DecidableEq

def NewPidEvent.process (event : NewPidEvent) : DroppedPid := ⟨event.pid, event.key⟩

def maxNewPidHandlers : Nat := 32

def newPidQueueSize : Nat := 1024

/-- The queue, the processes that were dropped, and the map of the processes that the kernel does not report again,
if it is loaded. The processes that are lost are for the proofs only: their event was dropped, and they have not
been out of the map since. -/
structure PidQueue where
  newPidEvents : List NewPidEvent
  droppedPids : List DroppedPid
  activePids : Option (List DroppedPid)
  lost : List DroppedPid

namespace PidQueue

variable (queue : PidQueue)

def leave (process : DroppedPid) : PidQueue :=
  { queue with
    activePids := queue.activePids.map fun active => active.filter (· ≠ process)
    lost := queue.lost.filter (· ≠ process) }

/-- The kernel puts a process that it reports into the map. -/
def report (process : DroppedPid) : PidQueue :=
  { queue with activePids := queue.activePids.map fun active =>
      if process ∈ active then active else process :: active }

inductive Op where
  | send (event : NewPidEvent)
  | insertDropped (process : DroppedPid)
  | receive
  | handle (event : NewPidEvent)
  | length
  | takeDropped
  | mapLoaded
  | deleteActivePid (process : DroppedPid)

abbrev Answer : Op → Type
  | .send _ => Bool
  | .receive => NewPidEvent
  | .length => Nat
  | .takeDropped => List DroppedPid
  | .mapLoaded => Bool
  | _ => Unit

/-- A send does not wait for room in the queue, and a receive waits for an event. The set of dropped processes is
bounded. -/
def perform : (op : Op) → Bool → PidQueue → Option (Answer op × PidQueue)
  | .send event, _, queue =>
    if queue.newPidEvents.length < newPidQueueSize then
      some (true, { queue with newPidEvents := queue.newPidEvents ++ [event] })
    else some (false, { queue with lost := event.process :: queue.lost })
  | .insertDropped process, _, queue =>
    some ((), if queue.droppedPids.length < newPidQueueSize ∧ process ∉ queue.droppedPids then
      { queue with droppedPids := process :: queue.droppedPids } else queue)
  | .receive, _, queue =>
    match queue.newPidEvents with
    | [] => none
    | event :: rest => some (event, { queue with newPidEvents := rest })
  | .handle _, _, queue => some ((), queue)
  | .length, _, queue => some (queue.newPidEvents.length, queue)
  | .takeDropped, _, queue => some (queue.droppedPids, { queue with droppedPids := [] })
  | .mapLoaded, _, queue => some (queue.activePids.isSome, queue)
  | .deleteActivePid process, fails, queue => some ((), if fails then queue else queue.leave process)

/-- What the kernel does: it reports a process, or a process exits. -/
inductive Event where
  | report (process : DroppedPid)
  | exit (process : DroppedPid)

def occur : Event → PidQueue → Option PidQueue
  | .report process, queue => some (queue.report process)
  | .exit process, queue => some (queue.leave process)

end PidQueue

open PidQueue

/-- The choice tells whether a removal from the map fails. -/
def pidQueues : Interface where
  State := PidQueue
  Op := PidQueue.Op
  Answer := PidQueue.Answer
  Choice := Bool
  Event := PidQueue.Event
  perform := PidQueue.perform
  occur := PidQueue.occur

def scheduleNewPidEvent (event : NewPidEvent) : Prog pidQueues Unit :=
  .call (Op.send event) fun (sent : Bool) =>
    if sent then .ret () else .call (Op.insertDropped event.process) .ret

def deleteActivePids : List DroppedPid → Prog pidQueues Unit
  | [] => .ret ()
  | process :: rest => .call (Op.deleteActivePid process) fun _ => deleteActivePids rest

def reportDroppedPidsAgain : Prog pidQueues Unit :=
  .call Op.length fun (length : Nat) =>
    if length > newPidQueueSize / 2 then .ret ()
    else .call Op.takeDropped fun (dropped : List DroppedPid) =>
      .call Op.mapLoaded fun (loaded : Bool) => if loaded then deleteActivePids dropped else .ret ()

/-- One round of `runPidHandler`, which goes on forever. -/
def runPidHandler : Prog pidQueues Unit :=
  .call Op.receive fun (event : NewPidEvent) => .call (Op.handle event) fun _ => reportDroppedPidsAgain

/-- Any number of calls that schedule an event, and the handlers. -/
inductive PidWorker where
  | schedule (call : Nat) (event : NewPidEvent)
  | handler (number : Fin maxNewPidHandlers)
deriving DecidableEq

def PidWorker.code : PidWorker → Prog pidQueues Unit
  | .schedule _ event => scheduleNewPidEvent event
  | .handler _ => runPidHandler

/-- A handler that is about to do this has an event to handle, or looks at the dropped processes later. -/
def PidQueue.Op.looks : Op → Bool
  | .handle _ => true
  | .length => true
  | .takeDropped => true
  | _ => false

/-- An event is queued, or a handler looks at the dropped processes later. -/
def Looking (world : World pidQueues PidWorker) : Prop :=
  world.state.newPidEvents ≠ [] ∨ ∃ worker op, (world.threads worker).next? = some op ∧ Op.looks op = true

def FewDropped (world : World pidQueues PidWorker) : Act pidQueues PidWorker → Prop
  | .step worker _ => ∀ process, (world.threads worker).next? = some (Op.insertDropped process) →
      world.state.droppedPids.length < newPidQueueSize
  | _ => True

/-- No removal from the map fails. -/
def Removes (world : World pidQueues PidWorker) : Act pidQueues PidWorker → Prop
  | .step worker fails => ∀ process, (world.threads worker).next? = some (Op.deleteActivePid process) →
    fails = false
  | _ => True

/-- A dropped process is remembered in time for a handler to find it. -/
def InTime (world : World pidQueues PidWorker) : Act pidQueues PidWorker → Prop
  | .step worker _ => ∀ process, (world.threads worker).next? = some (Op.insertDropped process) → Looking world
  | _ => True

/-- Dropped processes are few, are remembered in time, and can be removed from the map. -/
def Timely (world : World pidQueues PidWorker) (act : Act pidQueues PidWorker) : Prop :=
  FewDropped world act ∧ Removes world act ∧ InTime world act

/-- All events are handled: the queue is empty, no call that schedules an event is left, and the handlers wait for
the next event. -/
structure Handled (world : World pidQueues PidWorker) : Prop where
  queue : world.state.newPidEvents = []
  workers : ∀ worker op, (world.threads worker).next? = some op → op = Op.receive

/-- What a worker is up to. -/
inductive Duty where
  | insert (process : DroppedPid)
  | look
  | remove (processes : List DroppedPid)

abbrev Duty.none : Duty := .remove []

/-- A worker with the duty takes care of a process. -/
def Duty.cares (queue : PidQueue) (process : DroppedPid) : Duty → Prop
  | .insert own => own = process
  | .look => process ∈ queue.droppedPids
  | .remove processes => process ∈ processes

/-- A process is taken care of: it is found by the handler of an event in the queue, or by a worker. -/
def Cared (queue : PidQueue) (duties : PidWorker → Duty) (process : DroppedPid) : Prop :=
  (process ∈ queue.droppedPids ∧ queue.newPidEvents ≠ []) ∨ ∃ worker, (duties worker).cares queue process

/-- Every process that is lost is taken care of. -/
def AllCared (queue : PidQueue) (duties : PidWorker → Duty) : Prop :=
  queue.activePids.isSome = true → ∀ process ∈ queue.lost, Cared queue duties process

def pidDiscipline : Discipline pidQueues PidWorker Duty where
  inv := AllCared
  agrees op duty :=
    match op with
    | .receive => duty = .none
    | .insertDropped process => duty = .insert process
    | .handle _ => duty = .look
    | .length => duty = .look
    | .takeDropped => duty = .look
    | _ => True
  idle := .none
  allows queue duties _ op fails :=
    match op with
    | .insertDropped _ => queue.droppedPids.length < newPidQueueSize ∧
        (queue.newPidEvents ≠ [] ∨ ∃ worker, duties worker = .look)
    | .deleteActivePid _ => fails = false
    | _ => True

section cared

variable {queue after : PidQueue} {duties : PidWorker → Duty} {worker : PidWorker} {duty : Duty}
  {process : DroppedPid}

theorem Cared.by_worker (cares : duty.cares queue process) : Cared queue (update duties worker duty) process :=
  Or.inr ⟨worker, by rwa [update_self]⟩

theorem Duty.cares_of_dropped (cares : duty.cares queue process)
    (dropped : process ∈ queue.droppedPids → process ∈ after.droppedPids) : duty.cares after process := by
  cases duty with
  | insert own => exact cares
  | look => exact dropped cares
  | remove processes => exact cares

/-- A step of one worker: what it took care of, and what was left to the handlers of queued events, has to be taken
care of still. -/
theorem Cared.step (cared : Cared queue duties process)
    (dropped : process ∈ queue.droppedPids → process ∈ after.droppedPids ∨
      Cared after (update duties worker duty) process)
    (queued : process ∈ queue.droppedPids → queue.newPidEvents ≠ [] →
      Cared after (update duties worker duty) process)
    (own : (duties worker).cares queue process → Cared after (update duties worker duty) process) :
    Cared after (update duties worker duty) process := by
  rcases cared with ⟨isDropped, events⟩ | ⟨other, cares⟩
  · exact queued isDropped events
  by_cases here : other = worker
  · rw [here] at cares
    exact own cares
  by_cases kept : process ∈ queue.droppedPids → process ∈ after.droppedPids
  · refine Or.inr ⟨other, ?_⟩
    rw [update_of_ne here]
    exact Duty.cares_of_dropped cares kept
  · obtain ⟨isDropped, notDropped⟩ := Classical.not_imp.mp kept
    exact (dropped isDropped).resolve_left notDropped

end cared

section workers

variable {number : Fin maxNewPidHandlers}

variable {queue after : PidQueue} {duties : PidWorker → Duty} {worker : PidWorker} {duty : Duty}
  {process : DroppedPid}

/-- A worker that took care of nothing changes the queue, with the dropped processes as they are. -/
theorem AllCared.busy (all : AllCared queue duties) (free : duties worker = .none)
    (same : after.activePids = queue.activePids) (dropped : after.droppedPids = queue.droppedPids)
    (lost : ∀ process ∈ after.lost, process ∈ queue.lost ∨ duty.cares after process)
    (events : queue.newPidEvents ≠ [] → after.newPidEvents ≠ [] ∨ duty = .look) :
    AllCared after (update duties worker duty) := by
  intro loaded process isLost
  rw [same] at loaded
  rcases lost process isLost with before | cares
  · refine (all loaded process before).step (fun isDropped => Or.inl (dropped ▸ isDropped))
      (fun isDropped queued => ?_) ?_
    · rcases events queued with still | looks
      · exact Or.inl ⟨dropped ▸ isDropped, still⟩
      · rw [looks]
        exact .by_worker (show process ∈ after.droppedPids from dropped ▸ isDropped)
    · rw [free]
      exact fun never => absurd never not_mem_nil
  · exact .by_worker cares

/-- A handler goes on with the processes that it took care of, in an unchanged queue. -/
theorem AllCared.renote (all : AllCared queue duties)
    (own : queue.activePids.isSome = true → ∀ process, (duties worker).cares queue process →
      Cared queue (update duties worker duty) process) :
    AllCared queue (update duties worker duty) := by
  intro loaded process isLost
  exact (all loaded process isLost).step Or.inl (fun isDropped queued => Or.inl ⟨isDropped, queued⟩)
    (own loaded process)

/-- A process is remembered while somebody looks at the dropped processes later. -/
theorem AllCared.insert (all : AllCared queue duties) (has : duties worker = .insert process)
    (room : queue.droppedPids.length < newPidQueueSize)
    (looking : queue.newPidEvents ≠ [] ∨ ∃ worker, duties worker = .look)
    (same : after = if queue.droppedPids.length < newPidQueueSize ∧ process ∉ queue.droppedPids then { queue with
      droppedPids := process :: queue.droppedPids } else queue) :
    AllCared after (update duties worker .none) := by
  have grows : ∀ other, other ∈ queue.droppedPids ∨ other = process → other ∈ after.droppedPids := by
    intro other isOne
    rw [same]
    split
    · exact mem_cons.mpr isOne.symm
    next present =>
      have isMember : process ∈ queue.droppedPids := by
        by_contra absent
        exact present ⟨room, absent⟩
      rcases isOne with isDropped | rfl
      · exact isDropped
      · exact isMember
  have rest : after.activePids = queue.activePids ∧ after.lost = queue.lost ∧
      after.newPidEvents = queue.newPidEvents := by
    rw [same]
    split <;> exact ⟨rfl, rfl, rfl⟩
  obtain ⟨sameActive, sameLost, sameEvents⟩ := rest
  intro loaded other isLost
  rw [sameActive] at loaded
  rw [sameLost] at isLost
  refine (all loaded other isLost).step (fun isDropped => Or.inl (grows other (Or.inl isDropped)))
    (fun isDropped queued => ?_) fun own => ?_
  · exact Or.inl ⟨grows other (Or.inl isDropped), by rwa [sameEvents]⟩
  · rw [has] at own
    have isDropped : other ∈ after.droppedPids := grows other (Or.inr own.symm)
    rcases looking with queued | ⟨looker, looks⟩
    · exact Or.inl ⟨isDropped, by rwa [sameEvents]⟩
    · have different : looker ≠ worker := by
        rintro rfl
        rw [has] at looks
        cases looks
      refine Or.inr ⟨looker, ?_⟩
      rw [update_of_ne different, looks]
      exact isDropped

theorem schedule_safe (call : Nat) (event : NewPidEvent) :
    pidDiscipline.Safe (.schedule call event) (fun _ duty => duty = .none) (scheduleNewPidEvent event) .none := by
  refine ⟨trivial, fun queue duties all free _ sent after _ performed => ?_⟩
  simp only [pidQueues, perform] at performed
  split at performed
  · obtain ⟨rfl, rfl⟩ := Prod.mk.inj (Option.some.inj performed)
    refine ⟨.none, all.busy free rfl rfl (fun _ => Or.inl) fun _ => Or.inl ?_, rfl⟩
    exact append_ne_nil_of_right_ne_nil _ (cons_ne_nil _ _)
  · obtain ⟨rfl, rfl⟩ := Prod.mk.inj (Option.some.inj performed)
    refine ⟨.insert event.process, all.busy free rfl rfl (fun process isLost => ?_) Or.inl, rfl, ?_⟩
    · exact (mem_cons.mp isLost).symm.imp_right Eq.symm
    intro queue duties all has _ _ after allowed performed
    obtain ⟨_, same⟩ := Prod.mk.inj (Option.some.inj performed)
    exact ⟨.none, all.insert has allowed.1 allowed.2 same.symm, rfl⟩

theorem AllCared.remove
    {rest : List DroppedPid} (all : AllCared queue duties) (removes : duties worker = .remove (process :: rest)) :
    AllCared (queue.leave process) (update duties worker (.remove rest)) := by
  intro loaded other isLost
  have wasLoaded : queue.activePids.isSome = true := by
    rw [← loaded]
    exact Option.isSome_map.symm
  obtain ⟨before, different⟩ := mem_filter.mp isLost
  refine (all wasLoaded other before).step Or.inl (fun isDropped queued => Or.inl ⟨isDropped, queued⟩) fun own => ?_
  rw [removes] at own
  rcases mem_cons.mp own with same | isRest
  · exact absurd same (of_decide_eq_true different)
  · exact .by_worker isRest

/-- The processes that were taken are removed from the map one after the other. -/
theorem deleteActivePids_safe (worker : PidWorker) (processes : List DroppedPid) :
    pidDiscipline.Safe worker (fun _ duty => duty = .none) (deleteActivePids processes) (.remove processes) := by
  induction processes with
  | nil => rfl
  | cons process rest ih =>
    refine ⟨trivial, fun queue duties all removes fails _ after succeeds performed => ?_⟩
    obtain ⟨_, rfl⟩ := Prod.mk.inj (Option.some.inj performed)
    have isRemoved : fails = false := succeeds
    rw [isRemoved]
    exact ⟨.remove rest, all.remove removes, ih⟩

/-- The dropped processes are taken over by the handler that removes them. -/
theorem AllCared.take (all : AllCared queue duties) (looks : duties worker = .look) :
    AllCared { queue with droppedPids := [] } (update duties worker (.remove queue.droppedPids)) := by
  intro loaded process isLost
  have taken : process ∈ queue.droppedPids →
      Cared { queue with droppedPids := [] } (update duties worker (.remove queue.droppedPids)) process :=
    fun isDropped => .by_worker isDropped
  refine (all loaded process isLost).step (fun isDropped => Or.inr (taken isDropped))
    (fun isDropped _ => taken isDropped) ?_
  rw [looks]
  exact taken

/-- After the swap the handler removes all processes it took, so that none is left to it at the end. -/
theorem reportDroppedPidsAgain_safe (worker : PidWorker) :
    pidDiscipline.Safe worker (fun _ duty => duty = .none) reportDroppedPidsAgain .look := by
  refine ⟨rfl, fun queue duties all looks _ length after _ performed => ?_⟩
  obtain ⟨rfl, rfl⟩ := Prod.mk.inj (Option.some.inj performed)
  by_cases full : queue.newPidEvents.length > newPidQueueSize / 2
  · -- The queue is not empty, so that another handler looks later.
    refine ⟨.none, all.renote fun _ process cares => Or.inl ⟨?_, fun empty => ?_⟩, ?_⟩
    · rw [looks] at cares
      exact cares
    · rw [empty] at full
      exact absurd full (by decide)
    · dsimp only
      rw [if_pos full]
      rfl
  refine ⟨.look, all.renote fun _ process cares => .by_worker (looks ▸ cares), ?_⟩
  dsimp only
  rw [if_neg full]
  refine ⟨rfl, fun queue duties all looks _ dropped after _ performed => ?_⟩
  obtain ⟨rfl, rfl⟩ := Prod.mk.inj (Option.some.inj performed)
  refine ⟨.remove queue.droppedPids, all.take looks, trivial, ?_⟩
  intro queue' duties all removes _ loaded after _ performed
  obtain ⟨rfl, rfl⟩ := Prod.mk.inj (Option.some.inj performed)
  cases isLoaded : queue'.activePids.isSome with
  | false =>
    refine ⟨.none, all.renote fun loaded => ?_, rfl⟩
    rw [isLoaded] at loaded
    cases loaded
  | true =>
    refine ⟨.remove queue.droppedPids, all.renote fun _ process cares => .by_worker (removes ▸ cares), ?_⟩
    exact deleteActivePids_safe worker _

theorem runPidHandler_safe (worker : PidWorker) :
    pidDiscipline.Safe worker (fun _ duty => duty = .none) runPidHandler .none := by
  refine ⟨rfl, fun queue duties all free _ event after _ performed => ?_⟩
  simp only [pidQueues, perform] at performed
  split at performed
  · cases performed
  next first rest events =>
  obtain ⟨_, rfl⟩ := Prod.mk.inj (Option.some.inj performed)
  refine ⟨.look, all.busy free rfl rfl (fun _ => Or.inl) fun _ => Or.inr rfl, rfl, ?_⟩
  intro queue duties all looks _ _ after _ performed
  obtain ⟨_, rfl⟩ := Prod.mk.inj (Option.some.inj performed)
  exact ⟨.look, all.renote fun _ process cares => .by_worker (looks ▸ cares), reportDroppedPidsAgain_safe worker⟩

theorem PidWorker.safe (worker : PidWorker) :
    pidDiscipline.Safe worker (fun _ duty => duty = .none) worker.code .none := by
  cases worker with
  | schedule call event => exact schedule_safe call event
  | handler number => exact runPidHandler_safe _

end workers

section runs

variable {queue after : PidQueue} {duties : PidWorker → Duty} {world : World pidQueues PidWorker}

/-- The kernel does not lose a process. -/
theorem AllCared.occur (all : AllCared queue duties) {event : PidQueue.Event}
    (occurred : PidQueue.occur event queue = some after) : AllCared after duties := by
  cases event with
  | report process =>
    obtain rfl := Option.some.inj occurred
    intro loaded
    exact all (loaded ▸ Option.isSome_map.symm)
  | exit process =>
    obtain rfl := Option.some.inj occurred
    intro loaded other isLost
    exact all (loaded ▸ Option.isSome_map.symm) other (mem_filter.mp isLost).1

theorem looks_of_looking (noted : pidDiscipline.Noted world duties) (looking : Looking world) :
    world.state.newPidEvents ≠ [] ∨ ∃ worker, duties worker = .look := by
  rcases looking with queued | ⟨worker, op, comes, looks⟩
  · exact Or.inl queued
  have agrees := noted.agrees comes
  refine Or.inr ⟨worker, ?_⟩
  cases op with
  | handle event => exact agrees
  | length => exact agrees
  | takeDropped => exact agrees
  | send event => cases looks
  | insertDropped process => cases looks
  | receive => cases looks
  | mapLoaded => cases looks
  | deleteActivePid process => cases looks

/-- Once all events are handled, every process whose event was dropped has been removed from the map since, in every
run in which dropped processes are remembered in time and removals do not fail. -/
theorem dropped_reported_again (fresh : queue.lost = [])
    (reach : World.Reach PidWorker.code Timely (.idle queue) world)
    (handled : Handled world) : world.state.activePids.isSome = true → world.state.lost = [] := by
  have first : AllCared queue fun _ => .none := by
    intro _ process isLost
    rw [fresh] at isLost
    cases isLost
  have noted := pidDiscipline.noted_of_reach reach first PidWorker.safe ?_ ?_
  · obtain ⟨duties, noted⟩ := noted
    have free : ∀ worker, duties worker = .none := by
      intro worker
      cases comes : (world.threads worker).next? with
      | none => exact noted.idle comes
      | some op =>
        obtain rfl := handled.workers worker op comes
        exact noted.agrees comes
    intro loaded
    rw [eq_nil_iff_forall_not_mem]
    intro process isLost
    rcases noted.inv loaded process isLost with ⟨_, queued⟩ | ⟨worker, cares⟩
    · exact queued handled.queue
    · rw [free worker] at cares
      cases cares
  · intro world duties worker fails op permitted noted comes
    obtain ⟨room, succeeds, inTime⟩ := permitted
    cases op with
    | insertDropped process => exact ⟨room process comes, looks_of_looking noted (inTime process comes)⟩
    | deleteActivePid process => exact succeeds process comes
    | _ => exact trivial
  · intro world duties event after _ noted occurred
    exact noted.inv.occur occurred

end runs

section shell

/-- Where dropped processes are remembered in time and removed without failures, one world leads to another. -/
abbrev Runs (first world : World pidQueues PidWorker) : Prop := World.Reach PidWorker.code Timely first world

variable {first : World pidQueues PidWorker} {threads : PidWorker → Prog pidQueues Unit} {queue after : PidQueue}
  {worker : PidWorker}

/-- The operation does not remember a dropped process. -/
def PidQueue.Op.plain : Op → Bool
  | .insertDropped _ => false
  | _ => true

/-- Plain operations are permitted, as long as they do not fail. -/
theorem reach_plain {op : Op} {next : Answer op → Prog pidQueues Unit} {answer : Answer op}
    (reach : Runs first ⟨queue, update threads worker (.call op next)⟩)
    (plain : op.plain = true) (performed : PidQueue.perform op false queue = some (answer, after)) :
    Runs first ⟨after, update threads worker (next answer)⟩ := by
  have comes : (update threads worker (.call op next) worker).next? = some op := by
    rw [update_self]
    rfl
  refine reach.performs false ⟨fun process isOp => ?_, fun process isOp => rfl, fun process isOp => ?_⟩ performed
  all_goals
    rw [Option.some.inj (comes.symm.trans isOp)] at plain
    cases plain

theorem reach_removed {processes : List DroppedPid} (idle : threads worker = .ret ())
    (reach : Runs first ⟨queue, update threads worker (deleteActivePids processes)⟩) :
    Runs first ⟨processes.foldl PidQueue.leave queue, threads⟩ := by
  induction processes generalizing queue with
  | nil => exact reach.ends idle
  | cons process rest ih => exact ih (reach_plain reach rfl rfl)

variable {event : NewPidEvent} {rest : List NewPidEvent} (number : Fin maxNewPidHandlers)
  (reach : Runs first ⟨queue, threads⟩) (idle : threads (.handler number) = .ret ())
  (events : queue.newPidEvents = event :: rest)

include reach idle events

theorem reach_asked : Runs first ⟨{ queue with newPidEvents := rest },
    update threads (.handler number) (if rest.length > newPidQueueSize / 2 then .ret ()
      else .call Op.takeDropped fun (dropped : List DroppedPid) =>
        .call Op.mapLoaded fun (loaded : Bool) => if loaded then deleteActivePids dropped else .ret ())⟩ := by
  have received : PidQueue.perform .receive false queue = some (event, { queue with newPidEvents := rest }) := by
    simp only [PidQueue.perform, events]
  have started := reach.starts idle ⟨trivial, trivial, trivial⟩
  exact reach_plain (reach_plain (reach_plain started rfl received) rfl rfl) rfl rfl

/-- A handler deals with an event and removes the dropped processes, because the queue is at most half full. -/
theorem reach_flush (few : rest.length ≤ newPidQueueSize / 2) (loaded : queue.activePids.isSome = true) :
    Runs first
      ⟨queue.droppedPids.foldl PidQueue.leave { queue with newPidEvents := rest, droppedPids := [] }, threads⟩ := by
  have asked := reach_asked number reach idle events
  rw [if_neg (Nat.not_lt_of_le few)] at asked
  have taken := reach_plain (reach_plain asked rfl rfl) rfl rfl
  dsimp only at taken
  rw [loaded, if_pos rfl] at taken
  exact reach_removed idle taken

/-- A handler deals with an event without a dropped process to remove. -/
theorem reach_round (loaded : queue.activePids.isSome = true)
    (nothing : rest.length > newPidQueueSize / 2 ∨ queue.droppedPids = []) :
    Runs first ⟨{ queue with newPidEvents := rest }, threads⟩ := by
  by_cases full : rest.length > newPidQueueSize / 2
  · have asked := reach_asked number reach idle events
    rw [if_pos full] at asked
    exact asked.ends idle
  · have flushed := reach_flush number reach idle events (Nat.le_of_not_lt full) loaded
    have none' := nothing.resolve_left full
    have same : { queue with newPidEvents := rest } = { queue with newPidEvents := rest, droppedPids := [] } := by
      rw [← none']
    rw [none'] at flushed
    rw [same]
    exact flushed

omit events

theorem reach_rounds {events : List NewPidEvent} (queued : queue.newPidEvents = events ++ rest)
    (loaded : queue.activePids.isSome = true) (nothing : rest.length > newPidQueueSize / 2 ∨
      queue.droppedPids = []) :
    Runs first ⟨{ queue with newPidEvents := rest }, threads⟩ := by
  induction events generalizing queue with
  | nil =>
    have same : { queue with newPidEvents := rest } = queue := by
      rw [← nil_append rest, ← queued]
    rwa [same]
  | cons event events ih =>
    have more : (events ++ rest).length > newPidQueueSize / 2 ∨ queue.droppedPids = [] := by
      refine nothing.imp_left fun full => ?_
      rw [length_append]
      omega
    have handled : Runs first ⟨{ queue with newPidEvents := events ++ rest }, threads⟩ :=
      reach_round number reach idle queued loaded more
    have rounds := ih handled rfl loaded nothing
    exact rounds

omit reach idle

theorem reach_filled {number : Nat} (empty : queue.newPidEvents = []) (room : number ≤ newPidQueueSize) :
    Runs (.idle queue)
      (.idle { queue with newPidEvents := List.replicate number event }) := by
  induction number with
  | zero =>
    have same : { queue with newPidEvents := List.replicate 0 event } = queue := by
      rw [replicate_zero, ← empty]
    rw [same]
    exact .start
  | succ number ih =>
    have started : Runs (.idle queue)
        ⟨{ queue with newPidEvents := List.replicate number event },
          update (fun _ => .ret ()) (.schedule 0 event) (scheduleNewPidEvent event)⟩ :=
      (ih (Nat.le_of_succ_le room)).starts rfl ⟨trivial, trivial, trivial⟩
    have sent : PidQueue.perform (.send event) false { queue with newPidEvents := List.replicate number event } =
        some (true, { queue with newPidEvents := List.replicate (number + 1) event }) := by
      simp only [PidQueue.perform, length_replicate, if_pos (Nat.lt_of_succ_le room), replicate_succ']
    exact (reach_plain started rfl sent).ends rfl

def webEvent : NewPidEvent := ⟨1, 1, 1, 0, 5⟩

def shellEvent : NewPidEvent := ⟨2, 1, 2, 0, 5⟩

/-- The process is in the map since it was reported. -/
def shellReported : PidQueue := ⟨[], [], some [shellEvent.process], []⟩

def shellFull : PidQueue := { shellReported with newPidEvents := List.replicate newPidQueueSize webEvent }

/-- The queue is full when the event of the process comes. -/
def shellDropped : PidQueue := { shellFull with lost := [shellEvent.process] }

/-- The call that schedules the event is about to remember the process. -/
def shellWaiting : PidWorker → Prog pidQueues Unit :=
  update (fun _ => .ret ()) (.schedule 0 shellEvent) (.call (Op.insertDropped shellEvent.process) .ret)

theorem shell_dropped : Runs (.idle shellReported) ⟨shellDropped, shellWaiting⟩ := by
  have filled : Runs (.idle shellReported) (.idle shellFull) := reach_filled rfl (Nat.le_refl _)
  have started : Runs (.idle shellReported)
      ⟨shellFull, update (fun _ => .ret ()) (.schedule 0 shellEvent) (scheduleNewPidEvent shellEvent)⟩ :=
    filled.starts rfl ⟨trivial, trivial, trivial⟩
  have full : PidQueue.perform (.send shellEvent) false shellFull = some (false, shellDropped) := by
    simp only [PidQueue.perform, shellFull, length_replicate, if_neg (Nat.lt_irrefl newPidQueueSize)]
    rfl
  exact reach_plain started rfl full

/-- All events are handled before the process is remembered as dropped, so that no handler finds it. -/
theorem shell_forgotten :
    ∃ world, World.Reach PidWorker.code (fun world act => FewDropped world act ∧ Removes world act)
    (.idle shellReported) world ∧ Handled world ∧ shellEvent.process ∈ world.state.lost ∧
    world.state.activePids = some [shellEvent.process] := by
  have idle : shellWaiting (.handler ⟨0, by decide⟩) = .ret () := update_of_ne (by simp) _ _
  have drained : Runs (.idle shellReported)
      ⟨{ shellDropped with newPidEvents := [] }, shellWaiting⟩ :=
    reach_rounds _ shell_dropped idle (append_nil _).symm rfl (Or.inr rfl)
  have permitted : FewDropped ⟨{ shellDropped with newPidEvents := [] }, shellWaiting⟩
    (.step (.schedule 0 shellEvent) false) ∧
      Removes ⟨{ shellDropped with newPidEvents := [] }, shellWaiting⟩ (.step (.schedule 0 shellEvent) false) :=
    ⟨fun _ _ => by decide, fun _ _ => rfl⟩
  have late : World.Reach PidWorker.code (fun world act => FewDropped world act ∧ Removes world act)
      (.idle shellReported) ⟨{ shellDropped with newPidEvents := [], droppedPids := [shellEvent.process] },
        update (fun _ => .ret ()) (.schedule 0 shellEvent) (.ret ())⟩ :=
    (drained.mono fun _ _ timely => ⟨timely.1, timely.2.1⟩).performs false permitted rfl
  exact ⟨_, late.ends rfl, ⟨rfl, fun worker op comes => nomatch comes⟩, mem_singleton_self _, rfl⟩

/-- The process is remembered while the queue is full. The handler leaves it alone for half of the events and then
removes it from the map, before it deals with the other half. -/
theorem shell_reported_again : ∃ world, World.Reach PidWorker.code Timely (.idle shellReported) world ∧
    Handled world ∧
    world.state.lost = [] ∧ world.state.activePids = some [] := by
  have split : List.replicate newPidQueueSize webEvent =
      List.replicate (newPidQueueSize / 2 - 1) webEvent ++ webEvent :: List.replicate (newPidQueueSize / 2)
      webEvent := by
    rw [← replicate_succ, replicate_append_replicate]
    rfl
  have permitted : Timely ⟨shellDropped, shellWaiting⟩ (.step (.schedule 0 shellEvent) false) := by
    refine ⟨fun _ _ => by decide, fun _ _ => rfl, fun _ _ => Or.inl ?_⟩
    exact ne_nil_of_length_pos (length_replicate.symm ▸ by decide)
  have remembered : Runs (.idle shellReported)
      (.idle { shellDropped with droppedPids := [shellEvent.process] }) := by
    have inserted := shell_dropped.performs false permitted rfl
    exact inserted.ends rfl
  have half : Runs (.idle shellReported)
      (.idle { shellDropped with
        newPidEvents := webEvent :: List.replicate (newPidQueueSize / 2) webEvent
        droppedPids := [shellEvent.process] }) := by
    refine reach_rounds ⟨0, by decide⟩ remembered rfl split rfl (Or.inl ?_)
    rw [length_cons, length_replicate]
    exact Nat.lt_succ_self _
  have removed : Runs (.idle shellReported)
      (.idle ⟨List.replicate (newPidQueueSize / 2) webEvent, [], some [], []⟩) := by
    have few : (List.replicate (newPidQueueSize / 2) webEvent).length ≤ newPidQueueSize / 2 :=
      Nat.le_of_eq length_replicate
    exact @reach_flush _ _ _ webEvent (List.replicate (newPidQueueSize / 2) webEvent) ⟨0, by decide⟩ half
      rfl rfl few rfl
  have drained : Runs (.idle shellReported) (.idle ⟨[], [], some [], []⟩) :=
    reach_rounds ⟨0, by decide⟩ removed rfl (append_nil _).symm rfl (Or.inr rfl)
  have handled : Handled (.idle ⟨[], [], some [], []⟩) := ⟨rfl, fun worker op comes => nomatch comes⟩
  exact ⟨_, drained, handled, dropped_reported_again rfl drained handled rfl, rfl⟩

end shell

end SecurityProfiles.Bpf
