import Mathlib.Data.List.Basic

/-- All the outcomes that a program can have from a state. One that was stopped has no result. -/
def Faulty (σ α : Type) := σ → List (Option α × σ)

namespace Faulty

open List

variable {σ α β : Type}

instance : Monad (Faulty σ) where
  pure value := fun state => [(some value, state)]
  bind first rest := fun state => (first state).flatMap fun outcome =>
    match outcome.1 with
    | none => [(none, outcome.2)]
    | some value => rest value outcome.2

/-- One of several answers, or none if the operation fails. -/
def select (answers : σ → List α) : Faulty σ (Option α) := fun state =>
  (none, state) :: (some none, state) :: (answers state).map fun answer => (some (some answer), state)

/-- An answer, or none if the operation fails. -/
def query (answer : σ → α) : Faulty σ (Option α) := select fun state => [answer state]

/-- A change of the state. It is reported to have failed if it did not happen, and may be so even if it did. -/
def change (effect : σ → σ) : Faulty σ Bool := fun state =>
  [(none, state), (none, effect state), (some true, effect state), (some false, state), (some false, effect state)]

/-- From every state with the invariant and the precondition, the program keeps the invariant wherever it is
stopped, and its result has the postcondition. -/
def Triple (inv pre : σ → Prop) (program : Faulty σ α) (post : α → σ → Prop) : Prop :=
  ∀ state, inv state → pre state → ∀ outcome ∈ program state,
    inv outcome.2 ∧ ∀ value, outcome.1 = some value → post value outcome.2

/-- The program keeps the invariant, and its result has the postcondition. -/
abbrev Keeps (inv : σ → Prop) (program : Faulty σ α) (post : α → Prop) : Prop :=
  Triple inv (fun _ => True) program fun value _ => post value

section rules

variable {inv pre : σ → Prop} {program : Faulty σ α} {rest : α → Faulty σ β} {mid : α → σ → Prop}
  {post : β → σ → Prop}

theorem Triple.pure {value : β} (holds : ∀ state, inv state → pre state → post value state) :
    Triple inv pre (Pure.pure value) post := by
  rintro state kept before outcome member
  rw [mem_singleton.mp member]
  refine ⟨kept, fun other same => ?_⟩
  obtain rfl := Option.some.inj same
  exact holds state kept before

theorem Triple.bind (first : Triple inv pre program mid)
    (next : ∀ value, Triple inv (mid value) (rest value) post) :
    Triple inv pre (program >>= rest) post := by
  intro state kept before outcome member
  obtain ⟨⟨result, middle⟩, isFirst, isRest⟩ := mem_flatMap.mp member
  obtain ⟨keptFirst, after⟩ := first state kept before _ isFirst
  cases result with
  | none =>
    rw [mem_singleton.mp isRest]
    refine ⟨keptFirst, fun value stopped => ?_⟩
    cases stopped
  | some value => exact next value middle keptFirst (after value rfl) outcome isRest

theorem Triple.select {answers : σ → List α} {post : Option α → σ → Prop}
    (failed : ∀ state, inv state → pre state → post none state)
    (answered : ∀ state, inv state → pre state → ∀ answer ∈ answers state, post (some answer) state) :
    Triple inv pre (Faulty.select answers) post := by
  intro state kept before outcome member
  rcases mem_cons.mp member with rfl | member
  · exact ⟨kept, fun value stopped => by cases stopped⟩
  rcases mem_cons.mp member with rfl | member
  · refine ⟨kept, fun value same => ?_⟩
    obtain rfl := Option.some.inj same
    exact failed state kept before
  · obtain ⟨answer, isAnswer, rfl⟩ := mem_map.mp member
    refine ⟨kept, fun value same => ?_⟩
    obtain rfl := Option.some.inj same
    exact answered state kept before answer isAnswer

theorem Triple.query {answer : σ → α} {post : Option α → σ → Prop}
    (failed : ∀ state, inv state → pre state → post none state)
    (answered : ∀ state, inv state → pre state → post (some (answer state)) state) :
    Triple inv pre (Faulty.query answer) post :=
  Triple.select failed fun state kept before other isAnswer => by
    rw [mem_singleton.mp isAnswer]
    exact answered state kept before

theorem Triple.change {effect : σ → σ} {post : Bool → σ → Prop}
    (keeps : ∀ state, inv state → pre state → inv (effect state))
    (done : ∀ state, inv state → pre state → post true (effect state))
    (failed : ∀ state, inv state → pre state → post false state ∧ post false (effect state)) :
    Triple inv pre (Faulty.change effect) post := by
  intro state kept before outcome member
  have keptAfter := keeps state kept before
  simp only [Faulty.change, mem_cons, not_mem_nil, or_false] at member
  rcases member with rfl | rfl | rfl | rfl | rfl
  · exact ⟨kept, fun value stopped => by cases stopped⟩
  · exact ⟨keptAfter, fun value stopped => by cases stopped⟩
  · refine ⟨keptAfter, fun value same => ?_⟩
    obtain rfl := Option.some.inj same
    exact done state kept before
  · refine ⟨kept, fun value same => ?_⟩
    obtain rfl := Option.some.inj same
    exact (failed state kept before).1
  · refine ⟨keptAfter, fun value same => ?_⟩
    obtain rfl := Option.some.inj same
    exact (failed state kept before).2

theorem Triple.imp {post' : β → σ → Prop} {pre' : σ → Prop} {program : Faulty σ β}
    (triple : Triple inv pre program post) (before : ∀ state, inv state → pre' state → pre state)
    (after : ∀ value state, inv state → post value state → post' value state) : Triple inv pre' program post' := by
  intro state kept holds outcome member
  obtain ⟨keptAfter, results⟩ := triple state kept (before state kept holds) outcome member
  exact ⟨keptAfter, fun value same => after value outcome.2 keptAfter (results value same)⟩

theorem Triple.starting {γ : Type} {program : Faulty σ β} (part : σ → γ)
    (triple : ∀ value, Triple inv (fun state => part state = value) program post) : Triple inv pre program post :=
  fun state kept _ => triple (part state) state kept rfl

theorem Triple.done {value : β} : Triple inv pre (Pure.pure value : Faulty σ β) fun _ _ => True :=
  Triple.pure fun _ _ _ => trivial

/-- If a part of the state is known, the answer of a query for it is known as well. -/
theorem Triple.asks {γ : Type} (part : σ → γ) (answer : γ → α) {value : γ} {rest : Option α → Faulty σ β}
    (failed : Triple inv (fun state => part state = value) (rest none) post)
    (answered : Triple inv (fun state => part state = value) (rest (some (answer value))) post) :
    Triple inv (fun state => part state = value) ((Faulty.query fun state => answer (part state)) >>= rest)
      post := by
  have told : Triple inv (fun state => part state = value) (Faulty.query fun state => answer (part state))
      fun told state =>
      part state = value ∧ (told = none ∨ told = some (answer value)) :=
    Triple.query (fun _ _ same => ⟨same, Or.inl rfl⟩) fun _ _ same => ⟨same, Or.inr (by rw [same])⟩
  refine Triple.bind told fun told => ?_
  rintro state kept ⟨same, rfl | rfl⟩
  · exact failed state kept same
  · exact answered state kept same

/-- A program without conditions may be run whatever is known about the state. -/
theorem Keeps.weaken {post : β → Prop} {program : Faulty σ β} (keeps : Keeps inv program post) :
    Triple inv pre program fun value _ => post value :=
  keeps.imp (fun _ _ _ => trivial) fun _ _ _ holds => holds

/-- A part of an invariant that is not kept from then on. -/
theorem Keeps.framed {program : Faulty σ β}
    (keeps : Keeps (fun state => inv state ∧ pre state) program fun _ => True) :
    Triple inv pre program fun _ => pre := by
  intro state kept before outcome member
  obtain ⟨both, _⟩ := keeps state ⟨kept, before⟩ trivial outcome member
  exact ⟨both.1, fun _ _ => both.2⟩

theorem Keeps.pure {value : β} {post : β → Prop} (holds : post value) :
    Keeps inv (Pure.pure value : Faulty σ β) post :=
  Triple.pure fun _ _ _ => holds

theorem Keeps.bind {middle : α → Prop} {post : β → Prop} (first : Keeps inv program middle)
    (next : ∀ value, middle value → Keeps inv (rest value) post) : Keeps inv (program >>= rest) post := by
  refine Triple.bind first fun value state kept holds => ?_
  exact next value holds state kept trivial

theorem Keeps.done {value : β} : Keeps inv (Pure.pure value : Faulty σ β) fun _ => True := Keeps.pure trivial

section results

variable {post : β → Prop}

/-- The program goes on if the first part succeeds. -/
theorem Keeps.ifDone {program : Faulty σ Bool} {rest : Bool → Faulty σ β} (first : Keeps inv program fun _ => True)
    (stops : Keeps inv (rest false) post) (goes : Keeps inv (rest true) post) :
    Keeps inv (program >>= rest) post := by
  refine Keeps.bind first fun done _ => ?_
  cases done with
  | false => exact stops
  | true => exact goes

theorem Keeps.ifSome {program : Faulty σ (Option α)} {rest : Option α → Faulty σ β} {middle : Option α → Prop}
    (first : Keeps inv program middle) (stops : Keeps inv (rest none) post)
    (goes : ∀ value, middle (some value) → Keeps inv (rest (some value)) post) :
    Keeps inv (program >>= rest) post := by
  refine Keeps.bind first fun result known => ?_
  cases result with
  | none => exact stops
  | some value => exact goes value known

theorem Keeps.ifFound {program : Faulty σ (Option (Option α))} {rest : Option (Option α) → Faulty σ β}
    {middle : Option (Option α) → Prop} (first : Keeps inv program middle) (failed : Keeps inv (rest none) post)
    (absent : Keeps inv (rest (some none)) post)
    (found : ∀ value, middle (some (some value)) → Keeps inv (rest (some (some value))) post) :
    Keeps inv (program >>= rest) post := by
  refine first.ifSome failed fun result known => ?_
  cases result with
  | none => exact absent
  | some value => exact found value known

end results

theorem Keeps.change {effect : σ → σ} (keeps : ∀ state, inv state → inv (effect state)) :
    Keeps inv (Faulty.change effect) fun _ => True :=
  Triple.change (fun state kept _ => keeps state kept) (fun _ _ _ => trivial) fun _ _ _ =>
    ⟨trivial, trivial⟩

/-- What a query tells is what the invariant says about the state. -/
theorem Keeps.query {answer : σ → α} {post : Option α → Prop} (failed : post none)
    (answered : ∀ state, inv state → post (some (answer state))) : Keeps inv (Faulty.query answer) post :=
  Triple.query (fun _ _ _ => failed) fun state kept _ => answered state kept

/-- Asking changes nothing. -/
theorem Keeps.ask {answer : σ → α} : Keeps inv (Faulty.query answer) fun _ => True :=
  Keeps.query trivial fun _ _ => trivial

end rules

section outcomes

variable {program : Faulty σ α} {rest : α → Faulty σ β} {state middle : σ}

theorem mem_bind {value : α} {outcome : Option β × σ} (first : (some value, middle) ∈ program state)
    (next : outcome ∈ rest value middle) : outcome ∈ (program >>= rest) state :=
  mem_flatMap.mpr ⟨_, first, next⟩

theorem mem_bind_stopped (stopped : (none, middle) ∈ program state) : (none, middle) ∈ (program >>= rest) state :=
  mem_flatMap.mpr ⟨_, stopped, mem_singleton_self _⟩

theorem mem_change_stopped (effect : σ → σ) (state : σ) : (none, effect state) ∈ change effect state := by
  simp [change]

theorem mem_pure (value : α) (state : σ) : (some value, state) ∈ (Pure.pure value : Faulty σ α) state :=
  mem_singleton_self _

theorem mem_select {answers : σ → List α} (answer : α) (member : answer ∈ answers state) :
    (some (some answer), state) ∈ select answers state :=
  mem_cons_of_mem _ (mem_cons_of_mem _ (mem_map_of_mem member))

theorem mem_query (answer : σ → α) (state : σ) : (some (some (answer state)), state) ∈ query answer state :=
  mem_select _ (mem_singleton_self _)

theorem mem_change (effect : σ → σ) (state : σ) : (some true, effect state) ∈ change effect state := by
  simp [change]

theorem mem_bind_iff {result : β} {after : σ} : (some result, after) ∈ (program >>= rest) state ↔
    ∃ value middle, (some value, middle) ∈ program state ∧ (some result, after) ∈ rest value middle := by
  constructor
  · intro member
    obtain ⟨⟨first, middle⟩, isFirst, isRest⟩ := mem_flatMap.mp member
    cases first with
    | none => cases mem_singleton.mp isRest
    | some value => exact ⟨value, middle, isFirst, isRest⟩
  · rintro ⟨value, middle, isFirst, isRest⟩
    exact mem_bind isFirst isRest

theorem mem_pure_iff {value result : α} {after : σ} :
    (some result, after) ∈ (Pure.pure value : Faulty σ α) state ↔ result = value ∧ after = state := by
  refine mem_singleton.trans ?_
  rw [Prod.mk.injEq, Option.some.injEq]

theorem mem_select_iff {answers : σ → List α} {told : Option α} {after : σ} :
    (some told, after) ∈ select answers state ↔
      after = state ∧ ∀ answer, told = some answer → answer ∈ answers state := by
  cases told with
  | none => simp [select]
  | some answer =>
    simp only [select, mem_cons, mem_map, Prod.mk.injEq, Option.some.injEq, reduceCtorEq, false_and, false_or,
      forall_eq']
    constructor
    · rintro ⟨_, member, rfl, rfl⟩
      exact ⟨rfl, member⟩
    · rintro ⟨rfl, member⟩
      exact ⟨answer, member, rfl, rfl⟩

theorem mem_query_iff {answer : σ → α} {told : Option α} {after : σ} :
    (some told, after) ∈ query answer state ↔ after = state ∧ (told = none ∨ told = some (answer state)) := by
  refine mem_select_iff.trans (and_congr_right fun _ => ?_)
  cases told with
  | none => simp
  | some answer => simp

theorem mem_change_true {effect : σ → σ} {after : σ} :
    (some true, after) ∈ change effect state ↔ after = effect state := by
  simp [change]

theorem mem_query_bind_iff {answer : σ → α} {rest : Option α → Faulty σ β} {result : β} {after : σ} :
    (some result, after) ∈ (query answer >>= rest) state ↔
      (some result, after) ∈ rest none state ∨ (some result, after) ∈ rest (some (answer state)) state := by
  simp only [mem_bind_iff, mem_query_iff]
  constructor
  · rintro ⟨told, middle, ⟨rfl, rfl | rfl⟩, isRest⟩
    · exact Or.inl isRest
    · exact Or.inr isRest
  · rintro (isRest | isRest)
    · exact ⟨none, state, ⟨rfl, Or.inl rfl⟩, isRest⟩
    · exact ⟨_, state, ⟨rfl, Or.inr rfl⟩, isRest⟩

/-- Only a change that is made leads to the result. -/
theorem mem_ifDone_iff {effect : σ → σ} {next : Faulty σ β} {refusal result : β} {after : σ}
    (other : result ≠ refusal) :
    (some result, after) ∈ (change effect >>= fun done => if done = true then next else Pure.pure refusal) state ↔
      (some result, after) ∈ next (effect state) := by
  rw [mem_bind_iff]
  constructor
  · rintro ⟨done, middle, isChanged, isRest⟩
    cases done with
    | false => exact absurd (mem_pure_iff.mp isRest).1 other
    | true => rwa [mem_change_true.mp isChanged] at isRest
  · exact fun isRest => ⟨true, _, mem_change effect state, isRest⟩

end outcomes

/-- The states that a sequence of programs can lead to, each of them finished or stopped before the next one. -/
inductive Runs {ι : Type} (program : ι → Faulty σ α) (start : σ) : List ι → σ → Prop
  | start : Runs program start [] start
  | next {inputs : List ι} {input : ι} {state : σ} {outcome : Option α × σ} : Runs program start inputs state →
      outcome ∈ program input state → Runs program start (inputs ++ [input]) outcome.2

theorem Runs.keeps {ι : Type} {program : ι → Faulty σ α} {inv : σ → Prop} {start final : σ} {inputs : List ι}
    (run : Runs program start inputs final)
    (step : ∀ input ∈ inputs, Triple inv (fun _ => True) (program input) fun _ _ => True) (first : inv start) :
    inv final := by
  induction run with
  | start => exact first
  | @next inputs input state outcome before member ih =>
    have kept := ih fun earlier isEarlier => step earlier (mem_append_left _ isEarlier)
    exact (step input (mem_append_right _ mem_cons_self) state kept trivial outcome member).1

end Faulty
