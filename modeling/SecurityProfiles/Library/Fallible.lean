import Mathlib.Data.List.Forall2

namespace Fallible

open List

variable {ε α β : Type}

variable {first : Except ε α} {rest f : α → Except ε β} {result : β} {error : ε} {inputs : List α}
  {outputs : List β} {g : α → β} {condition : Prop}

theorem bind_ok :
    (first >>= rest) = .ok result ↔ ∃ middle, first = .ok middle ∧ rest middle = .ok result := by
  cases first with
  | error error => simp [bind, Except.bind]
  | ok middle => simp [bind, Except.bind]

theorem pure_ok {value result : α} : (pure value : Except ε α) = .ok result ↔ value = result := by
  simp [pure, Except.pure]

theorem map_ok {f : α → β} :
    first.map f = .ok result ↔ ∃ middle, first = .ok middle ∧ f middle = result := by
  cases first with
  | error error => simp [Except.map]
  | ok middle => simp [Except.map]

theorem map_error {f : α → β} : first.map f = .error error ↔ first = .error error := by
  cases first with
  | error other => simp [Except.map]
  | ok middle => simp [Except.map]

theorem mapM_ok (mapped : inputs.mapM f = .ok outputs) :
    List.Forall₂ (fun input output => f input = .ok output) inputs outputs := by
  induction inputs generalizing outputs with
  | nil =>
    rw [mapM_nil, pure_ok] at mapped
    subst mapped
    exact .nil
  | cons input inputs ih =>
    rw [mapM_cons, bind_ok] at mapped
    obtain ⟨output, first, mapped⟩ := mapped
    obtain ⟨rest, mappedRest, mapped⟩ := bind_ok.mp mapped
    rw [pure_ok] at mapped
    subst mapped
    exact .cons first (ih mappedRest)

/-- A computation that can only end with one result maps a list to these results, if it succeeds. -/
theorem mapM_eq_map (outcome : ∀ input output, f input = .ok output → output = g input)
    (mapped : inputs.mapM f = .ok outputs) :
    outputs = inputs.map g ∧ ∀ input ∈ inputs, f input = .ok (g input) := by
  have each := mapM_ok mapped
  clear mapped
  induction each with
  | nil => simp
  | cons first others ih =>
    obtain rfl := outcome _ _ first
    rw [ih.1, map_cons]
    exact ⟨rfl, forall_mem_cons.mpr ⟨first, ih.2⟩⟩

theorem forall₂_mem {related : α → β → Prop} (each : List.Forall₂ related inputs outputs) :
    (∀ input ∈ inputs, ∃ output ∈ outputs, related input output) ∧
      ∀ output ∈ outputs, ∃ input ∈ inputs, related input output := by
  induction each with
  | nil => simp
  | @cons input output inputs outputs first others ih =>
    refine ⟨fun one member => ?_, fun one member => ?_⟩
    · rcases mem_cons.mp member with rfl | later
      · exact ⟨output, mem_cons_self, first⟩
      · obtain ⟨found, listed, isRelated⟩ := ih.1 one later
        exact ⟨found, mem_cons_of_mem _ listed, isRelated⟩
    · rcases mem_cons.mp member with rfl | later
      · exact ⟨input, mem_cons_self, first⟩
      · obtain ⟨found, listed, isRelated⟩ := ih.2 one later
        exact ⟨found, mem_cons_of_mem _ listed, isRelated⟩

theorem mapM_mem (mapped : inputs.mapM f = .ok outputs) :
    (∀ input ∈ inputs, ∃ output ∈ outputs, f input = .ok output) ∧
      ∀ output ∈ outputs, ∃ input ∈ inputs, f input = .ok output :=
  forall₂_mem (mapM_ok mapped)

/-- A computation on a list fails with the failure of one of its members. -/
theorem mapM_error (failed : inputs.mapM f = .error error) :
    ∃ input ∈ inputs, f input = .error error := by
  induction inputs with
  | nil => cases failed
  | cons input inputs ih =>
    rw [mapM_cons] at failed
    cases first : f input with
    | error other =>
      rw [first] at failed
      cases failed
      exact ⟨input, mem_cons_self, first⟩
    | ok output =>
      rw [first] at failed
      cases others : inputs.mapM f with
      | error other =>
        rw [others] at failed
        cases failed
        obtain ⟨later, member, isError⟩ := ih others
        exact ⟨later, mem_cons_of_mem _ member, isError⟩
      | ok outputs =>
        rw [others] at failed
        cases failed

theorem mapM_of_forall (each : ∀ input ∈ inputs, f input = .ok (g input)) :
    inputs.mapM f = .ok (inputs.map g) := by
  induction inputs with
  | nil => rfl
  | cons input inputs ih =>
    obtain ⟨first, others⟩ := forall_mem_cons.mp each
    rw [mapM_cons, first, ih others]
    rfl

/-- A loop whose turns are accepted or refused for their inputs alone. -/
theorem foldlM_ok {step : β → α → Except ε β} {value : β → α → β} {Accepts : α → Prop}
    (each : ∀ state input next, step state input = .ok next ↔ Accepts input ∧ value state input = next)
    (state last : β) :
    inputs.foldlM step state = .ok last ↔ (∀ input ∈ inputs, Accepts input) ∧ inputs.foldl value state = last := by
  induction inputs generalizing state with
  | nil => simp [pure_ok]
  | cons input inputs ih =>
    rw [foldlM_cons, bind_ok, forall_mem_cons, foldl_cons]
    simp only [each, ih]
    grind

/-- A list of checks passes if each of them does. -/
theorem forM_ok {check : α → Except ε PUnit} :
    inputs.forM check = .ok () ↔ ∀ input ∈ inputs, check input = .ok () := by
  induction inputs with
  | nil => simp [pure, Except.pure]
  | cons input inputs ih =>
    rw [forall_mem_cons, ← ih]
    exact bind_ok.trans ⟨fun ⟨_, checked, others⟩ => ⟨checked, others⟩, fun both => ⟨(), both⟩⟩

def require (condition : Prop) [Decidable condition] (error : ε) : Except ε Unit :=
  if condition then .ok () else .error error

@[simp] theorem require_ok [Decidable condition] :
    require condition error = .ok () ↔ condition := by
  by_cases holds : condition <;> simp [require, holds]

theorem require_error [Decidable condition] {failure : ε}
    (failed : require condition error = .error failure) : error = failure := by
  unfold require at failed
  split at failed
  · cases failed
  · exact Except.error.inj failed

theorem bind_error (failed : (first >>= rest) = .error error) :
    first = .error error ∨ ∃ middle, rest middle = .error error := by
  cases first with
  | error other =>
    cases failed
    exact .inl rfl
  | ok middle => exact .inr ⟨middle, failed⟩

theorem forM_error {check : α → Except ε Unit} (failed : inputs.forM check = .error error) :
    ∃ input ∈ inputs, check input = .error error := by
  induction inputs with
  | nil => cases failed
  | cons input inputs ih =>
    rcases bind_error failed with first | ⟨_, others⟩
    · exact ⟨input, mem_cons_self, first⟩
    · obtain ⟨later, member, isError⟩ := ih others
      exact ⟨later, mem_cons_of_mem _ member, isError⟩

/-- Two checks one after the other. -/
theorem seq_ok {first second : Except ε Unit} : (do first; second) = .ok () ↔ first = .ok () ∧ second = .ok () :=
  bind_ok.trans ⟨fun ⟨_, checked, others⟩ => ⟨checked, others⟩, fun both => ⟨(), both⟩⟩

end Fallible
