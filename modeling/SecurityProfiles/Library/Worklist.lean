import Mathlib.Data.Multiset.DershowitzManna

namespace SecurityProfiles.Worklist

variable {σ α ε : Type*} {visit : σ → α → Except ε (σ × List α)}

/-- One turn of the loop visits the first item of the queue. The items that this adds wait behind the others. -/
def Turn (visit : σ → α → Except ε (σ × List α)) (after before : σ × List α) : Prop :=
  ∃ item rest more, before.2 = item :: rest ∧ visit before.1 item = .ok (after.1, more) ∧ after.2 = rest ++ more

/-- Visit the items of the queue until none is left or one is refused. No run goes on for ever. -/
def run (visit : σ → α → Except ε (σ × List α)) (ends : WellFounded (Turn visit)) (state : σ) (queue : List α) :
    Except ε σ :=
  match queue with
  | [] => .ok state
  | item :: rest =>
    match _visited : visit state item with
    | .error error => .error error
    | .ok (next, more) => run visit ends next (rest ++ more)
termination_by ends.wrap (state, queue)
decreasing_by exact ⟨item, rest, more, rfl, _visited, rfl⟩

/-- The loop ends if the items that are added have a lower rank than the one that is taken. -/
theorem ends_of_rank {rank : α → Nat} (falls : ∀ state item next more, visit state item = .ok (next, more) →
    ∀ one ∈ more, rank one < rank item) : WellFounded (Turn visit) := by
  -- The ranks of the queue fall in the order of multisets: one of them is replaced by lower ones.
  have descends : WellFounded (@Multiset.IsDershowitzMannaLT Nat _) := Multiset.wellFounded_isDershowitzMannaLT
  refine Subrelation.wf ?_ (InvImage.wf (fun pair : σ × List α => (pair.2 : Multiset α).map rank) descends)
  rintro ⟨next, _⟩ ⟨state, _⟩ ⟨item, rest, more, rfl, visited, rfl⟩
  refine ⟨(rest : Multiset α).map rank, (more : Multiset α).map rank, {rank item}, ?_, ?_, ?_, ?_⟩
  · exact Multiset.singleton_ne_zero _
  · rw [← Multiset.map_add, Multiset.coe_add]
  · show ((item :: rest : List α) : Multiset α).map rank = _
    rw [← Multiset.cons_coe, Multiset.map_cons, add_comm, Multiset.singleton_add]
  · intro low isLow
    obtain ⟨one, added, rfl⟩ := Multiset.mem_map.mp isLow
    exact ⟨rank item, Multiset.mem_singleton_self _, falls _ _ _ _ visited one added⟩

/-- The loop ends if each item that is added takes something from a stock that the state has. -/
theorem ends_of_stock {stock : σ → Nat} (falls : ∀ state item next more, visit state item = .ok (next, more) →
    stock next + more.length ≤ stock state) : WellFounded (Turn visit) := by
  refine Subrelation.wf ?_ (measure fun pair : σ × List α => stock pair.1 + pair.2.length).wf
  rintro ⟨next, _⟩ ⟨state, _⟩ ⟨item, rest, more, rfl, visited, rfl⟩
  have less := falls state item next more visited
  show stock next + (rest ++ more).length < stock state + (item :: rest).length
  rw [List.length_append, List.length_cons]
  omega

variable {ends : WellFounded (Turn visit)} {state next : σ} {item : α} {rest more queue : List α}

theorem run_nil : run visit ends state [] = .ok state := by
  rw [run]

theorem run_ok (visited : visit state item = .ok (next, more)) :
    run visit ends state (item :: rest) = run visit ends next (rest ++ more) := by
  rw [run]
  split
  · next refused =>
      rw [refused] at visited
      cases visited
  · next same =>
      cases Except.ok.inj (same.symm.trans visited)
      rfl

theorem run_keeps {holds : σ → List α → Prop}
    (keeps : ∀ state item rest next more, holds state (item :: rest) → visit state item = .ok (next, more) →
      holds next (rest ++ more))
    (start : holds state queue) :
    (∀ last, run visit ends state queue = .ok last → holds last []) ∧
      ∀ error, run visit ends state queue = .error error →
        ∃ state item rest, holds state (item :: rest) ∧ visit state item = .error error := by
  fun_induction run visit ends state queue with
  | case1 state =>
    refine ⟨fun last isLast => ?_, fun error isError => ?_⟩
    · cases isLast
      exact start
    · cases isError
  | case2 state item rest refusal refused =>
    refine ⟨fun last isLast => ?_, fun error isError => ?_⟩
    · cases isLast
    · cases isError
      exact ⟨state, item, rest, start, refused⟩
  | case3 state item rest next more visited ih => exact ih (keeps _ _ _ _ _ start visited)

end SecurityProfiles.Worklist
