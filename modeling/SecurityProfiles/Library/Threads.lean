import Mathlib.Tactic.Common

namespace Threads

open Function

/-- Operations on a shared state, and events that change it from outside. An operation that can end in several ways
is told by a choice how it does; one that cannot be performed now has no outcome. -/
structure Interface where
  State : Type
  Op : Type
  Answer : Op → Type
  Choice : Type
  Event : Type
  perform : (op : Op) → Choice → State → Option (Answer op × State)
  occur : Event → State → Option State

/-- A program is the tree of the operations it performs and of what it does with each answer. -/
inductive Prog (I : Interface) (α : Type) where
  | ret (result : α)
  | call (op : I.Op) (next : I.Answer op → Prog I α)

namespace Prog

variable {I : Interface} {α β : Type}

protected def bind : Prog I α → (α → Prog I β) → Prog I β
  | .ret result, rest => rest result
  | .call op next, rest => .call op fun answer => (next answer).bind rest

instance : Monad (Prog I) where
  pure := .ret
  bind := Prog.bind

/-- Try again as long as the error is one to try again for and attempts are left after the next one. -/
def retry {ε : Type} (again : ε → Bool) (attempt : Prog I (Except ε α)) : Nat → Prog I (Except ε α)
  | 0 => attempt
  | left + 1 => attempt >>= fun result =>
    match result with
    | .ok value => .ret (.ok value)
    | .error error => if again error then retry again attempt left else .ret (.error error)

def next? : Prog I α → Option I.Op
  | .ret _ => none
  | .call op _ => some op

end Prog

/-- A shared state and the threads that work on it. -/
structure World (I : Interface) (ι : Type) where
  state : I.State
  threads : ι → Prog I Unit

inductive Act (I : Interface) (ι : Type) where
  | start (thread : ι)
  | step (thread : ι) (choice : I.Choice)
  | event (event : I.Event)

namespace World

variable {I : Interface} {ι : Type} [DecidableEq ι]

/-- A thread that is done may be started again. -/
def act (code : ι → Prog I Unit) (world : World I ι) : Act I ι → Option (World I ι)
  | .start thread =>
    match world.threads thread with
    | .ret _ => some { world with threads := update world.threads thread (code thread) }
    | .call _ _ => none
  | .step thread choice =>
    match world.threads thread with
    | .ret _ => none
    | .call op next =>
      (I.perform op choice world.state).map fun (answer, state) =>
        { state := state, threads := update world.threads thread (next answer) }
  | .event event => (I.occur event world.state).map fun state => { world with state := state }

/-- The acts one after the other, as long as they pass the check. -/
def run (code : ι → Prog I Unit) (check : World I ι → Act I ι → Bool) (world : World I ι) :
    List (Act I ι) → Option (World I ι)
  | [] => some world
  | act :: acts =>
    if check world act then (world.act code act).bind fun after => after.run code check acts else none

def Done (world : World I ι) : Prop := ∀ thread, (world.threads thread).next? = none

def idle (state : I.State) : World I ι := { state := state, threads := fun _ => .ret () }

/-- The worlds that permitted acts lead to. -/
inductive Reach (code : ι → Prog I Unit) (permits : World I ι → Act I ι → Prop) (first : World I ι) :
    World I ι → Prop
  | start : Reach code permits first first
  | next {world after : World I ι} {act : Act I ι} (reach : Reach code permits first world)
    (permitted : permits world act)
      (acted : world.act code act = some after) : Reach code permits first after

variable {code : ι → Prog I Unit} {permits : World I ι → Act I ι → Prop}

variable {first world start : World I ι} {state : I.State} {threads : ι → Prog I Unit} {thread : ι}
  {check : World I ι → Act I ι → Bool} {acts : List (Act I ι)}

theorem Reach.mono {permits' : World I ι → Act I ι → Prop}
    (weaker : ∀ world act, permits world act → permits' world act) (reach : Reach code permits first world) :
    Reach code permits' first world := by
  induction reach with
  | start => exact .start
  | next _ permitted acted ih => exact ih.next (weaker _ _ permitted) acted

theorem Reach.keeps (reach : Reach code permits first world) (property : World I ι → Prop)
    (kept : ∀ world after act, property world → permits world act → world.act code act = some after →
      property after)
    (holds : property first) : property world := by
  induction reach with
  | start => exact holds
  | next _ permitted acted ih => exact kept _ _ _ ih permitted acted

theorem Reach.starts (reach : Reach code permits first ⟨state, threads⟩) (idle : threads thread = .ret ())
    (permitted : permits ⟨state, threads⟩ (.start thread)) :
    Reach code permits first ⟨state, update threads thread (code thread)⟩ :=
  reach.next permitted (by simp only [act, idle])

theorem Reach.performs {after : I.State} {op : I.Op} {next : I.Answer op → Prog I Unit} {answer : I.Answer op}
    (reach : Reach code permits first ⟨state, update threads thread (.call op next)⟩) (choice : I.Choice)
    (permitted : permits ⟨state, update threads thread (.call op next)⟩ (.step thread choice))
    (performed : I.perform op choice state = some (answer, after)) :
    Reach code permits first ⟨after, update threads thread (next answer)⟩ := by
  refine reach.next permitted ?_
  simp only [act, update_self, performed, Option.map_some, update_idem]

theorem Reach.ends (reach : Reach code permits first ⟨state, update threads thread (.ret ())⟩)
    (idle : threads thread = .ret ()) : Reach code permits first ⟨state, threads⟩ := by
  rwa [← idle, update_eq_self] at reach

theorem Reach.of_run (sound : ∀ world act, check world act = true → permits world act)
    (reach : Reach code permits first start)
    (ran : start.run code check acts = some world) : Reach code permits first world := by
  induction acts generalizing start with
  | nil =>
    cases Option.some.inj ran
    exact reach
  | cons act acts ih =>
    simp only [run] at ran
    split at ran
    · next checked =>
        obtain ⟨after, acted, rest⟩ := Option.bind_eq_some_iff.mp ran
        exact ih (reach.next (sound start act checked) acted) rest
    · cases ran

def started : List (Act I ι) → List ι
  | [] => []
  | .start thread :: acts => thread :: started acts
  | _ :: acts => started acts

theorem ret_of_run (ran : start.run code check acts = some world) (notStarted : thread ∉ started acts)
    (idle : (start.threads thread).next? = none) : (world.threads thread).next? = none := by
  induction acts generalizing start with
  | nil =>
    cases Option.some.inj ran
    exact idle
  | cons first acts ih =>
    simp only [run] at ran
    split at ran
    · obtain ⟨after, acted, rest⟩ := Option.bind_eq_some_iff.mp ran
      refine ih rest ?_ ?_
      · cases first <;> simp_all [started]
      · cases first with
        | start other =>
          have different : thread ≠ other := fun same => notStarted (by simp [started, same])
          simp only [act] at acted
          split at acted
          · cases Option.some.inj acted
            simpa [update_of_ne different] using idle
          · cases acted
        | step other choice =>
          simp only [act] at acted
          split at acted
          · cases acted
          · next op next shape =>
              obtain ⟨⟨answer, state⟩, _, rfl⟩ := Option.map_eq_some_iff.mp acted
              have different : thread ≠ other := by
                intro same
                rw [same, shape] at idle
                cases idle
              simpa [update_of_ne different] using idle
        | event event =>
          obtain ⟨state, _, rfl⟩ := Option.map_eq_some_iff.mp acted
          exact idle
    · cases ran

theorem exists_of_any
    {property : World I ι → Bool} (ran : ((World.idle state).run code check acts).any property = true)
    (sound : ∀ world act, check world act = true → permits world act) :
    ∃ world, Reach code permits (.idle state) world ∧ property world = true := by
  cases isRun : (World.idle state).run code check acts with
  | none =>
    rw [isRun] at ran
    cases ran
  | some world =>
    rw [isRun] at ran
    exact ⟨world, .of_run sound .start isRun, ran⟩

/-- The acts can be performed, all threads end, and the state is as told. -/
def endsIn (code : ι → Prog I Unit) (check : World I ι → Act I ι → Bool) (state : I.State) (acts : List (Act I ι))
    (property : I.State → Bool) : Bool :=
  ((World.idle state).run code check acts).any fun world =>
    (started acts).all (fun thread => (world.threads thread).next?.isNone) && property world.state

theorem exists_of_endsIn {property : I.State → Bool} (ran : endsIn code check state acts property = true)
    (sound : ∀ world act, check world act = true → permits world act) :
    ∃ world, Reach code permits (.idle state) world ∧ world.Done ∧ property world.state = true := by
  unfold endsIn at ran
  cases isRun : (World.idle state).run code check acts with
  | none =>
    rw [isRun] at ran
    cases ran
  | some world =>
  rw [isRun] at ran
  obtain ⟨ended, holds⟩ := Bool.and_eq_true_iff.mp ran
  refine ⟨world, .of_run sound .start isRun, fun thread => ?_, holds⟩
  by_cases isStarted : thread ∈ started acts
  · exact Option.isNone_iff_eq_none.mp (List.all_eq_true.mp ended thread isStarted)
  · exact ret_of_run isRun isStarted rfl

end World

/-- How a proof annotates threads: an invariant of the state and the notes of all threads, what a note says about
the operation that comes next, the note of a thread that is done, and what may be assumed of a step. -/
structure Discipline (I : Interface) (ι γ : Type) where
  inv : I.State → (ι → γ) → Prop
  agrees : I.Op → γ → Prop
  idle : γ
  allows : I.State → (ι → γ) → ι → I.Op → I.Choice → Prop

namespace Discipline

variable {I : Interface} {ι γ : Type} [DecidableEq ι] (discipline : Discipline I ι γ)

/-- From its note on, the program of the thread keeps the invariant with each operation and ends as told. -/
def Safe {α : Type} (thread : ι) (post : α → γ → Prop) : Prog I α → γ → Prop
  | .ret result, note => post result note
  | .call op next, note => discipline.agrees op note ∧
      ∀ state notes, discipline.inv state notes → notes thread = note →
        ∀ choice answer after, discipline.allows state notes thread op choice →
          I.perform op choice state = some (answer, after) →
          ∃ note', discipline.inv after (update notes thread note') ∧ Safe thread post (next answer) note'

variable {discipline} {α β : Type} {thread : ι} {note : γ}

variable {program : Prog I α} {world : World I ι} {notes : ι → γ} {thread : ι}

theorem Safe.bind {post : β → γ → Prop} {rest : α → Prog I β}
    (first : discipline.Safe thread (fun result note => discipline.Safe thread post (rest result) note)
      program note) :
    discipline.Safe thread post (program >>= rest) note := by
  induction program generalizing note with
  | ret result => exact first
  | call op next ih =>
    refine ⟨first.1, fun state notes held noted choice answer after allowed performed => ?_⟩
    obtain ⟨note', kept, safe⟩ := first.2 state notes held noted choice answer after allowed performed
    exact ⟨note', kept, ih answer safe⟩

theorem Safe.imp {post post' : α → γ → Prop} (safe : discipline.Safe thread post program note)
    (weaker : ∀ result note, post result note → post' result note) : discipline.Safe thread post' program note := by
  induction program generalizing note with
  | ret result => exact weaker result note safe
  | call op next ih =>
    refine ⟨safe.1, fun state notes held noted choice answer after allowed performed => ?_⟩
    obtain ⟨note', kept, rest⟩ := safe.2 state notes held noted choice answer after allowed performed
    exact ⟨note', kept, ih answer rest⟩

/-- An operation after which the note still fits. -/
theorem Safe.keep {op : I.Op} {next : I.Answer op → Prog I α} {post : α → γ → Prop}
    (agrees : discipline.agrees op note)
    (kept : ∀ choice state notes answer after, I.perform op choice state = some (answer, after) →
      discipline.inv state notes → discipline.inv after notes)
    (rest : ∀ answer, discipline.Safe thread post (next answer) note) :
    discipline.Safe thread post (.call op next) note := by
  refine ⟨agrees, fun state notes held noted choice answer after _ performed => ⟨note, ?_, rest answer⟩⟩
  rw [← noted, update_eq_self]
  exact kept choice state notes answer after performed held

/-- The operation keeps the invariant and takes the note of the thread to one that the answer tells. -/
def Steps (discipline : Discipline I ι γ) (thread : ι) (op : I.Op) (note : γ) (next : I.Answer op → γ) : Prop :=
  discipline.agrees op note ∧
    ∀ state notes, discipline.inv state notes → notes thread = note →
      ∀ choice answer after, discipline.allows state notes thread op choice →
        I.perform op choice state = some (answer, after) →
        discipline.inv after (update notes thread (next answer))

theorem Steps.safe {op : I.Op} {next : I.Answer op → Prog I α} {note' : I.Answer op → γ} {post : α → γ → Prop}
    (steps : discipline.Steps thread op note note')
    (rest : ∀ answer, discipline.Safe thread post (next answer) (note' answer)) :
    discipline.Safe thread post (.call op next) note :=
  ⟨steps.1, fun state notes held noted choice answer after allowed performed =>
    ⟨note' answer, steps.2 state notes held noted choice answer after allowed performed, rest answer⟩⟩

/-- An attempt that is repeated is safe, if it leaves a note from which it may start again whenever its error is one
to be retried. -/
theorem Safe.retry {ε : Type} {again : ε → Bool} {post : Except ε α → γ → Prop} {attempt : Prog I (Except ε α)}
    (start : γ → Prop)
    (once : ∀ note, start note →
      discipline.Safe thread (fun result note => post result note ∧ ∀ error, result = .error error →
      again error = true → start note) attempt note)
    (left : Nat) (starts : start note) : discipline.Safe thread post (attempt.retry again left) note := by
  induction left generalizing note with
  | zero => exact (once note starts).imp fun _ _ ended => ended.1
  | succ left ih =>
    refine .bind ((once note starts).imp fun result note ended => ?_)
    cases result with
    | ok value => exact ended.1
    | error error =>
      change discipline.Safe thread post
        (if again error = true then attempt.retry again left else .ret (.error error)) note
      split
      · next repeats => exact ih (ended.2 error rfl repeats)
      · exact ended.1

/-- The notes of a world: the invariant holds, and each thread is safe from its note on. -/
structure Noted (world : World I ι) (notes : ι → γ) : Prop where
  inv : discipline.inv world.state notes
  safe : ∀ thread, discipline.Safe thread (fun _ note => note = discipline.idle) (world.threads thread)
    (notes thread)

theorem Noted.agrees (noted : discipline.Noted world notes) {op : I.Op}
    (comes : (world.threads thread).next? = some op) : discipline.agrees op (notes thread) := by
  have safe := noted.safe thread
  cases shape : world.threads thread with
  | ret result =>
    rw [shape] at comes
    cases comes
  | call op' next =>
    rw [shape] at comes safe
    cases Option.some.inj comes
    exact safe.1

theorem Noted.idle (noted : discipline.Noted world notes)
    (done : (world.threads thread).next? = none) : notes thread = discipline.idle := by
  have safe := noted.safe thread
  cases shape : world.threads thread with
  | ret result =>
    rw [shape] at safe
    exact safe
  | call op next =>
    rw [shape] at done
    cases done

/-- Threads that are safe one by one keep the invariant side by side. -/
theorem noted_of_reach {code : ι → Prog I Unit} {permits : World I ι → Act I ι → Prop} {state : I.State}
    (reach : World.Reach code permits (.idle state) world) (first : discipline.inv state fun _ => discipline.idle)
    (safe : ∀ thread, discipline.Safe thread (fun _ note => note = discipline.idle) (code thread) discipline.idle)
    (steps : ∀ (world : World I ι) notes thread choice op, permits world (.step thread choice) →
      discipline.Noted world notes → (world.threads thread).next? = some op →
      discipline.allows world.state notes thread op choice)
    (events : ∀ (world : World I ι) notes event after, permits world (.event event) → discipline.Noted world notes →
      I.occur event world.state = some after → discipline.inv after notes) :
    ∃ notes, discipline.Noted world notes := by
  induction reach with
  | start => exact ⟨fun _ => discipline.idle, first, fun _ => rfl⟩
  | @next world after act reach permitted acted ih =>
    obtain ⟨notes, noted⟩ := ih
    cases act with
    | event event =>
      obtain ⟨state, occurred, rfl⟩ := Option.map_eq_some_iff.mp acted
      exact ⟨notes, events world notes event state permitted noted occurred, noted.safe⟩
    | start thread =>
      have idle : notes thread = discipline.idle := by
        refine noted.idle ?_
        cases shape : world.threads thread with
        | ret result => rfl
        | call op next => simp [World.act, shape] at acted
      have same : after = { world with threads := update world.threads thread (code thread) } := by
        simp only [World.act] at acted
        split at acted
        · exact (Option.some.inj acted).symm
        · cases acted
      rw [same]
      refine ⟨notes, noted.inv, fun other => ?_⟩
      by_cases here : other = thread
      · rw [here, idle]
        simpa using safe thread
      · simpa [update_of_ne here] using noted.safe other
    | step thread choice =>
      cases shape : world.threads thread with
      | ret result => simp [World.act, shape] at acted
      | call op next =>
        have here := noted.safe thread
        rw [shape] at here
        simp only [World.act, shape] at acted
        obtain ⟨⟨answer, state⟩, performed, rfl⟩ := Option.map_eq_some_iff.mp acted
        have allowed := steps world notes thread choice op permitted noted (by rw [shape]; rfl)
        obtain ⟨note, kept, rest⟩ := here.2 world.state notes noted.inv rfl choice answer state allowed performed
        refine ⟨update notes thread note, kept, fun other => ?_⟩
        by_cases same : other = thread
        · rw [same]
          simpa using rest
        · simpa [update_of_ne same] using noted.safe other

end Discipline

end Threads
