import Mathlib.Data.Finset.Basic

/-- How items are rendered, compared with what is deployed, deployed and read back. -/
structure Rollout (Config Item Wanted Actual : Type) where
  Allowed : Item → Prop
  render : Config → Finset Item → Wanted
  differs : Wanted → Actual → Bool
  deploy : Wanted → Actual → Actual
  present : Actual → Finset Item
  allowed_present : ∀ actual, ∀ item ∈ present actual, Allowed item
  present_of_same : ∀ config items actual, (∀ item ∈ items, Allowed item) →
    differs (render config items) actual = false → present actual = items
  same_deploy : ∀ wanted actual, differs wanted (deploy wanted actual) = false

namespace Rollout

variable {Config Item Wanted Actual : Type} [DecidableEq Item] (rollout : Rollout Config Item Wanted Actual)

/-- The items to render, and whether there is something to deploy. The items that are there stay
if they are all that is not needed. -/
def plan (config : Config) (needed : Finset Item) (actual : Actual) : Finset Item × Bool :=
  if rollout.differs (rollout.render config (rollout.present actual ∪ needed)) actual then (needed, true)
  else (rollout.present actual ∪ needed, false)

/-- What a reconciliation is given: the configuration, the items needed, and whether it deploys for
a reason of its own. -/
structure Round (Config Item : Type) where
  config : Config
  needed : Finset Item
  forced : Bool

def round (given : Round Config Item) (actual : Actual) : Actual :=
  let (items, changed) := rollout.plan given.config given.needed actual
  if changed || given.forced then rollout.deploy (rollout.render given.config items) actual else actual

section plan

variable (config : Config) (needed : Finset Item) (actual : Actual)

theorem needed_subset_plan : needed ⊆ (rollout.plan config needed actual).1 := by
  unfold plan
  split
  · exact Finset.Subset.refl needed
  · exact Finset.subset_union_right

theorem same_of_unchanged (unchanged : (rollout.plan config needed actual).2 = false) :
    rollout.differs (rollout.render config (rollout.plan config needed actual).1) actual = false := by
  unfold plan at unchanged ⊢
  split at unchanged
  · cases unchanged
  · next same =>
      rw [if_neg same]
      exact Bool.eq_false_iff.mpr same

theorem plan_of_changed (changed : (rollout.plan config needed actual).2 = true) :
    (rollout.plan config needed actual).1 = needed := by
  unfold plan at changed ⊢
  split at changed
  · next differs => rw [if_pos differs]
  · cases changed

variable {needed} (allowed : ∀ item ∈ needed, rollout.Allowed item)

include allowed

theorem allowed_plan : ∀ item ∈ (rollout.plan config needed actual).1, rollout.Allowed item := by
  intro item member
  unfold plan at member
  split at member
  · exact allowed item member
  · rcases Finset.mem_union.mp member with there | new
    · exact rollout.allowed_present actual item there
    · exact allowed item new

/-- Without a change, what is deployed has exactly the items that are rendered. -/
theorem present_eq_plan (unchanged : (rollout.plan config needed actual).2 = false) :
    rollout.present actual = (rollout.plan config needed actual).1 :=
  rollout.present_of_same config _ actual (rollout.allowed_plan config actual allowed)
    (rollout.same_of_unchanged config needed actual unchanged)

/-- A change is one of what gets rendered, not only of the items that would have stayed. -/
theorem differs_of_changed (changed : (rollout.plan config needed actual).2 = true) :
    rollout.differs (rollout.render config (rollout.plan config needed actual).1) actual = true := by
  rw [rollout.plan_of_changed config needed actual changed]
  by_contra same
  -- If only the items that would have stayed differed, there would be none of them.
  have same := Bool.eq_false_iff.mpr same
  have exactly := rollout.present_of_same config needed actual allowed same
  rw [plan, exactly, Finset.union_self, same] at changed
  cases changed

end plan

section round

variable (given : Round Config Item) (actual : Actual)

theorem same_round : rollout.differs (rollout.render given.config (rollout.plan given.config given.needed actual).1)
    (rollout.round given actual) = false := by
  rw [round]
  dsimp only
  split
  · exact rollout.same_deploy _ actual
  · next kept =>
      obtain ⟨unchanged, -⟩ := Bool.or_eq_false_iff.mp (Bool.eq_false_iff.mpr kept)
      exact rollout.same_of_unchanged given.config given.needed actual unchanged

variable (allowed : ∀ item ∈ given.needed, rollout.Allowed item)

include allowed

theorem present_round : rollout.present (rollout.round given actual) =
    (rollout.plan given.config given.needed actual).1 :=
  rollout.present_of_same given.config _ _ (rollout.allowed_plan given.config actual allowed)
    (rollout.same_round given actual)

/-- A second round with the same given finds nothing to do. -/
theorem plan_round : rollout.plan given.config given.needed (rollout.round given actual) =
    ((rollout.plan given.config given.needed actual).1, false) := by
  have items : rollout.present (rollout.round given actual) ∪ given.needed =
      (rollout.plan given.config given.needed actual).1 := by
    rw [rollout.present_round given actual allowed]
    exact Finset.union_eq_left.mpr (rollout.needed_subset_plan given.config given.needed actual)
  rw [plan, items, rollout.same_round given actual]
  rfl

end round

end Rollout
