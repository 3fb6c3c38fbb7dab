import SecurityProfiles.Allowing.Resolve
import SecurityProfiles.Library.Worklist

namespace SecurityProfiles.Allowing

open List

def indexBaseProfile (profile : SeccompProfile) : List Str :=
  if profile.baseProfileName = [] ∨ ociProfilePrefix.isPrefixOf profile.baseProfileName then []
  else [profile.baseProfileName]

structure NamespacedName where
  (namespace' : Str)
  (name : Str)
deriving DecidableEq

/-- What the search has found; the keys of `seen` stand in the order in which they were added. -/
structure Found where
  seen : List Str
  requests : List NamespacedName

section search

variable (cluster : Str → Store) (fails : Str → Bool) (namespace' : Str)

/-- The items that the client lists for a base profile. -/
def listItems (base : Str) : List Str :=
  ((cluster namespace').profiles.entries.filter fun entry => decide (base ∈ indexBaseProfile entry.2)).map
    fun entry => entry.2.name

/-- One item of a listing, with the bases that the listing added before it. -/
def enqueue (found : Found × List Str) (name : Str) : Found × List Str :=
  if name ∈ found.1.seen then found
  else (⟨found.1.seen ++ [name], found.1.requests ++ [⟨namespace', name⟩]⟩, found.2 ++ [name])

/-- One turn of the loop. A listing that fails ends it with the requests so far. -/
def listDerived (found : Found) (base : Str) : Except (List NamespacedName) (Found × List Str) :=
  if fails base then .error found.requests
  else .ok ((listItems cluster namespace' base).foldl (enqueue namespace') (found, []))

end search

/-- The profile of the first name has the second as its local base profile. -/
def BasedOn (store : Store) (name base : Str) : Prop :=
  ∃ profile, store.get? name = some profile ∧ profile.baseProfileName = base ∧ base ≠ [] ∧
    ociProfilePrefix.isPrefixOf base = false

variable {cluster : Str → Store} {fails : Str → Bool} {namespace' : Str}

theorem mem_listItems {base name : Str} :
    name ∈ listItems cluster namespace' base ↔ BasedOn (cluster namespace') name base := by
  have indexed : ∀ profile : SeccompProfile, base ∈ indexBaseProfile profile ↔
      profile.baseProfileName = base ∧ base ≠ [] ∧ ociProfilePrefix.isPrefixOf base = false := by
    intro profile
    unfold indexBaseProfile
    split <;> grind
  unfold listItems BasedOn Store.get?
  simp only [mem_map, mem_filter, decide_eq_true_eq, indexed]
  constructor
  · rintro ⟨⟨key, profile⟩, ⟨listed, based⟩, rfl⟩
    have stored := SortedMap.mem_entries.mp listed
    rw [(cluster namespace').named key profile stored]
    exact ⟨profile, stored, based⟩
  · rintro ⟨profile, stored, based⟩
    exact ⟨⟨name, profile⟩, ⟨SortedMap.mem_entries.mpr stored, based⟩,
      (cluster namespace').named name profile stored⟩

/-- The listed names that are new are added everywhere, each of them once. -/
theorem foldl_enqueue (names : List Str) (found : Found) (bases : List Str) :
    ∃ more, names.foldl (enqueue namespace') (found, bases) =
        (⟨found.seen ++ more, found.requests ++ more.map (NamespacedName.mk namespace')⟩, bases ++ more) ∧
      more.Nodup ∧ ∀ name, name ∈ more ↔ name ∈ names ∧ name ∉ found.seen := by
  induction names generalizing found bases with
  | nil => exact ⟨[], by simp, nodup_nil, by simp⟩
  | cons first rest ih =>
    rw [foldl_cons]
    by_cases known : first ∈ found.seen
    · rw [enqueue, if_pos known]
      obtain ⟨more, folds, distinct, isMore⟩ := ih found bases
      refine ⟨more, folds, distinct, fun name => ?_⟩
      grind
    · rw [enqueue, if_neg known]
      obtain ⟨more, folds, distinct, isMore⟩ :=
        ih ⟨found.seen ++ [first], found.requests ++ [⟨namespace', first⟩]⟩ (bases ++ [first])
      refine ⟨first :: more, ?_, ?_, fun name => ?_⟩
      · rw [folds]
        simp
      · grind
      · grind

theorem listDerived_ok {found next : Found} {base : Str} {more : List Str}
    (listed : listDerived cluster fails namespace' found base = .ok (next, more)) :
    next = ⟨found.seen ++ more, found.requests ++ more.map (NamespacedName.mk namespace')⟩ ∧ more.Nodup ∧
      ∀ name, name ∈ more ↔ BasedOn (cluster namespace') name base ∧ name ∉ found.seen := by
  unfold listDerived at listed
  split at listed
  · cases listed
  · obtain ⟨added, folds, distinct, isAdded⟩ := foldl_enqueue (listItems cluster namespace' base) found []
    rw [folds] at listed
    cases listed
    exact ⟨rfl, distinct, fun name => by rw [← mem_listItems]; exact isAdded name⟩

/-- The profiles of the namespace that were not seen yet. -/
def unseen (cluster : Str → Store) (namespace' : Str) (found : Found) : Finset Str :=
  (cluster namespace').profiles.keys \ found.seen.toFinset

/-- Each name that is added to the queue was unseen before. -/
theorem unseen_falls {found next : Found} {base : Str} {more : List Str}
    (listed : listDerived cluster fails namespace' found base = .ok (next, more)) :
    (unseen cluster namespace' next).card + more.length ≤ (unseen cluster namespace' found).card := by
  obtain ⟨rfl, distinct, isMore⟩ := listDerived_ok listed
  have apart : Disjoint
      (unseen cluster namespace' ⟨found.seen ++ more, found.requests ++ more.map (NamespacedName.mk namespace')⟩)
      more.toFinset := by
    rw [Finset.disjoint_left]
    intro name
    simp only [unseen, toFinset_append]
    grind
  rw [← toFinset_card_of_nodup distinct, ← Finset.card_union_of_disjoint apart]
  refine Finset.card_le_card fun name => ?_
  intro either
  rcases Finset.mem_union.mp either with later | added
  · simp only [unseen, toFinset_append] at later ⊢
    grind
  · obtain ⟨⟨profile, stored, -⟩, fresh⟩ := (isMore name).mp (mem_toFinset.mp added)
    rw [unseen, Finset.mem_sdiff, mem_toFinset]
    exact ⟨SortedMap.mem_keys.mpr ⟨profile, stored⟩, fresh⟩

theorem listDerived_ends (cluster : Str → Store) (fails : Str → Bool) (namespace' : Str) :
    WellFounded (Worklist.Turn (listDerived cluster fails namespace')) :=
  Worklist.ends_of_stock fun _ _ _ _ listed => unseen_falls listed

/-- `derivedProfileRequests` for the changed object. -/
def derivedProfileRequests (cluster : Str → Store) (fails : Str → Bool) (namespace' name : Str) :
    List NamespacedName :=
  match Worklist.run (listDerived cluster fails namespace') (listDerived_ends ..) ⟨[name], []⟩ [name] with
  | .error requests => requests
  | .ok found => found.requests

/-- The search from a name, with the bases that wait: those that were looked at have no unseen derived profile. -/
structure Searched (store : Store) (namespace' name : Str) (found : Found) (bases : List Str) : Prop where
  distinct : found.seen.Nodup
  seen : ∃ names, found.seen = name :: names ∧ found.requests = names.map (NamespacedName.mk namespace') ∧
    ∀ derived ∈ names, Relation.TransGen (BasedOn store) derived name
  waiting : ∀ base ∈ bases, base ∈ found.seen
  closed : ∀ base ∈ found.seen, base ∈ bases ∨ ∀ derived, BasedOn store derived base → derived ∈ found.seen

/-- One turn of the search: what is listed for a base was either found before or is put into the queue, so nothing
derived is missed. -/
theorem Searched.step {name base : Str} {found next : Found} {rest more : List Str}
    (searched : Searched (cluster namespace') namespace' name found (base :: rest))
    (listed : listDerived cluster fails namespace' found base = .ok (next, more)) :
    Searched (cluster namespace') namespace' name next (rest ++ more) := by
  obtain ⟨rfl, distinct, isMore⟩ := listDerived_ok listed
  obtain ⟨names, isSeen, isRequests, derive⟩ := searched.seen
  refine ⟨?_, ⟨names ++ more, ?_, ?_, ?_⟩, ?_, ?_⟩
  · refine nodup_append.mpr ⟨searched.distinct, distinct, ?_⟩
    grind
  · dsimp only
    rw [isSeen, cons_append]
  · dsimp only
    rw [isRequests, map_append]
  · intro derived isDerived
    rcases mem_append.mp isDerived with old | added
    · exact derive derived old
    · have based := ((isMore derived).mp added).1
      have baseSeen := searched.waiting base (mem_cons_self ..)
      rw [isSeen] at baseSeen
      rcases mem_cons.mp baseSeen with rfl | known
      · exact .single based
      · exact .head based (derive base known)
  · intro waits isWaiting
    have earlier := searched.waiting waits
    grind
  · intro one isSeen
    rcases mem_append.mp isSeen with old | added
    · rcases searched.closed one old with waits | looked
      · rcases mem_cons.mp waits with rfl | later
        · refine .inr fun derived based => ?_
          have := isMore derived
          grind
        · exact .inl (mem_append_left _ later)
      · exact .inr fun derived based => mem_append_left _ (looked derived based)
    · exact .inl (mem_append_right _ added)

theorem Searched.complete {store : Store} {name derived : Str} {found : Found}
    (searched : Searched store namespace' name found [])
    (reaches : Relation.TransGen (BasedOn store) derived name) :
    derived ∈ found.seen := by
  obtain ⟨names, isSeen, -, -⟩ := searched.seen
  have closed : ∀ base ∈ found.seen, ∀ derived, BasedOn store derived base → derived ∈ found.seen := by
    intro base known
    rcases searched.closed base known with waits | looked
    · cases waits
    · exact looked
  induction reaches using Relation.TransGen.head_induction_on with
  | single based => exact closed name (by rw [isSeen]; exact mem_cons_self ..) _ based
  | head based _ ih => exact closed _ ih _ based

/-- The search ends, also where the base references have a cycle. If no listing fails, it requests every profile
that has the changed one below it, other than the changed one itself, once, and nothing else. -/
theorem derivedProfileRequests_exact (cluster : Str → Store) (fails : Str → Bool) (namespace' name : Str) :
    WellFounded (Worklist.Turn (listDerived cluster fails namespace')) ∧
      ((∀ base, fails base = false) → (derivedProfileRequests cluster fails namespace' name).Nodup ∧
        ∀ request : NamespacedName, request ∈ derivedProfileRequests cluster fails namespace' name ↔
          request.namespace' = namespace' ∧ request.name ≠ name ∧
            Relation.TransGen (BasedOn (cluster namespace')) request.name name) := by
  refine ⟨listDerived_ends cluster fails namespace', fun succeeds => ?_⟩
  have start : Searched (cluster namespace') namespace' name ⟨[name], []⟩ [name] := by
    refine ⟨nodup_singleton _, ⟨[], rfl, rfl, by simp⟩, by simp, ?_⟩
    intro base known
    exact .inl known
  have keeps : ∀ found base rest next more, Searched (cluster namespace') namespace' name found (base :: rest) →
      listDerived cluster fails namespace' found base = .ok (next, more) →
      Searched (cluster namespace') namespace' name next (rest ++ more) :=
    fun _ _ _ _ _ searched listed => searched.step listed
  obtain ⟨atEnd, atError⟩ :=
    @Worklist.run_keeps _ _ _ _ (listDerived_ends cluster fails namespace') _ _ _ keeps start
  unfold derivedProfileRequests
  split
  · next requests refused =>
      obtain ⟨found, base, -, -, failed⟩ := atError requests refused
      rw [listDerived, succeeds base] at failed
      cases failed
  · next found ended =>
      have searched := atEnd found ended
      obtain ⟨names, isSeen, isRequests, derive⟩ := searched.seen
      have distinct := searched.distinct
      rw [isSeen, nodup_cons] at distinct
      rw [isRequests]
      refine ⟨distinct.2.map fun first second same => (NamespacedName.mk.inj same).2, fun request => ?_⟩
      rw [mem_map]
      constructor
      · rintro ⟨derived, isDerived, rfl⟩
        exact ⟨rfl, fun same => distinct.1 (same ▸ isDerived), derive derived isDerived⟩
      · rintro ⟨rfl, other, reaches⟩
        have known := searched.complete reaches
        rw [isSeen] at known
        exact ⟨request.name, (mem_cons.mp known).resolve_left other, rfl⟩

end SecurityProfiles.Allowing
