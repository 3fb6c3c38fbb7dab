import SecurityProfiles.Handover.Builders
import SecurityProfiles.Library.Threads

namespace SecurityProfiles.Handover

open Threads Function

/-- The sets of the enricher, the one that the cache has for the profile, and the profiles that the recorder stored.
Next to it all items that were ever inserted. -/
structure Sets (α : Type) where
  cached : Option Nat
  made : Nat
  items : Nat → List α
  inserted : List α
  stored : List Spec
  foreign : Bool

def Sets.initial {α : Type} : Sets α where
  cached := none
  made := 0
  items _ := []
  inserted := []
  stored := []
  foreign := false

inductive Op (α : Type) where
  | getOrSet
  | insert (set : Nat) (item : α)
  | hold
  | fetch
  | store (profile : Spec)
  | reset

/-- A call succeeds, or fails without effect, or has its effect and the reply is lost. -/
inductive Choice where
  | serve
  | refuse
  | lose
deriving DecidableEq

variable {α : Type}

/-- Fetching tells the items, or that there are none. -/
abbrev Answer (α : Type) : Op α → Type
  | .getOrSet => Nat
  | .insert _ _ => Unit
  | .hold => Bool
  | .fetch => Option (Option (List α))
  | .store _ => Bool
  | .reset => Bool

/-- A profile of another recording under the same name makes the recorder drop its data without an error. -/
def Sets.perform [DecidableEq α] : (op : Op α) → Choice → Sets α → Option (Answer α op × Sets α)
  | .getOrSet, _, sets =>
    match sets.cached with
    | some set => some (set, sets)
    | none => some (sets.made, { sets with cached := some sets.made, made := sets.made + 1,
                                           items := update sets.items sets.made [] })
  | .insert set item, _, sets =>
    some ((), { sets with items := update sets.items set ((sets.items set).insert item),
                          inserted := item :: sets.inserted })
  | .hold, choice, sets => some (decide (choice = .serve), sets)
  | .fetch, .serve, sets => some (some (sets.cached.map sets.items), sets)
  | .fetch, _, sets => some (none, sets)
  | .store profile, choice, sets =>
    if choice = .refuse then some (false, sets)
    else if sets.foreign then some (decide (choice = .serve), sets)
    else some (decide (choice = .serve), { sets with stored := profile :: sets.stored })
  | .reset, choice, sets =>
    if choice = .refuse then some (false, sets)
    else some (decide (choice = .serve), { sets with cached := none })

section code

variable (α) [DecidableEq α]

def enricher : Interface where
  State := Sets α
  Op := Op α
  Answer := Answer α
  Choice := Choice
  Event := Bool
  perform := Sets.perform
  occur foreign sets := some { sets with foreign := foreign }

end code

variable [DecidableEq α]

/-- One item of `dispatchSeccompLine` or `dispatchSelinuxLine`. -/
def dispatchLine (item : α) : Prog (enricher α) Unit :=
  .call Op.getOrSet fun (set : Nat) => .call (Op.insert set item) .ret

/-- The items, none if there are none, or a failure. No items are reset as well. -/
def fetchData : Prog (enricher α) (Option (Option (List α))) :=
  .call Op.fetch fun (answer : Option (Option (List α))) =>
    match answer with
    | none => .ret none
    | some none => .call Op.reset fun (reset : Bool) => .ret (if reset then some none else none)
    | some (some items) => .ret (some (some items))

/-- Collect the profile; the result tells whether the pod is done. -/
def collectLogProfileGeneric (collector : Collector α) : Prog (enricher α) Bool :=
  .call Op.hold fun (held : Bool) =>
    if held then do
      match ← fetchData with
      | none => .ret false
      | some none => .ret true
      | some (some items) =>
        match collector.build items with
        | .error _ => .ret false
        | .ok profile => .call (Op.store profile) fun (stored : Bool) =>
          if stored then .call Op.reset .ret else .ret false
    else .ret false

/-- Any number of dispatches of the enricher, and the recorder, which tries again until the profile is collected. -/
inductive Thread (α : Type) where
  | dispatcher (number : Nat) (item : α)
  | recorder
deriving DecidableEq

def Thread.code (collector : Collector α) : Thread α → Prog (enricher α) Unit
  | .dispatcher _ item => dispatchLine item
  | .recorder => do
      let _ ← collectLogProfileGeneric collector

/-- The recorder has fetched the items and did not reset them yet. -/
def Collecting (world : World (enricher α) (Thread α)) : Prop :=
  ∃ op, (world.threads .recorder).next? = some op ∧ (op = .reset ∨ ∃ profile, op = .store profile)

/-- Nothing is inserted between fetching and resetting, no dispatch is between getting the set and inserting into it
when the set is reset, and the profile to be stored belongs to no other recording. -/
def Undisturbed (world : World (enricher α) (Thread α)) : Act (enricher α) (Thread α) → Prop
  | .step (.dispatcher number item) _ =>
    (∃ set item', (world.threads (.dispatcher number item)).next? = some (.insert set item')) → ¬Collecting world
  | .step .recorder _ =>
    ((world.threads .recorder).next? = some .reset → ∀ number item set item',
      (world.threads (.dispatcher number item)).next? ≠ some (.insert set item')) ∧
    ((∃ profile, (world.threads .recorder).next? = some (.store profile)) → world.state.foreign = false)
  | _ => True

/-- What a thread knows: the set it inserts into, the items it fetched, or that all items are stored. -/
inductive Note (α : Type) where
  | idle
  | holding (set : Nat)
  | fetched (items : List α)
  | saved

section inv

variable {collector : Collector α} {sets : Sets α} {notes : Thread α → Note α}

def Saved (collector : Collector α) (sets : Sets α) (item : α) : Prop :=
  ∃ profile ∈ sets.stored, profile.Contains (collector.rule item)

/-- All items are stored or in the set of the cache, which the dispatches insert into and of which the recorder
knows the items. -/
structure Inv (collector : Collector α) (sets : Sets α) (notes : Thread α → Note α) : Prop where
  kept : ∀ item ∈ sets.inserted, (∃ set, sets.cached = some set ∧ item ∈ sets.items set) ∨ Saved collector sets item
  holding : ∀ thread set, notes thread = .holding set → sets.cached = some set
  fetched : ∀ items, notes .recorder = .fetched items → ∀ set, sets.cached = some set →
    ∀ item ∈ sets.items set, item ∈ items
  saved : notes .recorder = .saved → ∀ set, sets.cached = some set →
    ∀ item ∈ sets.items set, Saved collector sets item

theorem Inv.note (inv : Inv collector sets notes) {thread : Thread α} {note : Note α}
    (holding : ∀ set, note = .holding set → sets.cached = some set)
    (fetched : ∀ items, note = .fetched items → ∀ set, sets.cached = some set →
      ∀ item ∈ sets.items set, item ∈ items)
    (saved : note = .saved → ∀ set, sets.cached = some set → ∀ item ∈ sets.items set, Saved collector sets item) :
    Inv collector sets (update notes thread note) where
  kept := inv.kept
  holding other set held := by
    by_cases same : other = thread
    · subst same
      exact holding set (by simpa using held)
    · exact inv.holding other set (by simpa [update_of_ne same] using held)
  fetched items known := by
    by_cases same : Thread.recorder = thread
    · subst same
      exact fetched items (by simpa using known)
    · exact inv.fetched items (by simpa [update_of_ne same] using known)
  saved known := by
    by_cases same : Thread.recorder = thread
    · subst same
      exact saved (by simpa using known)
    · exact inv.saved (by simpa [update_of_ne same] using known)

theorem Inv.idle (inv : Inv collector sets notes) (thread : Thread α) :
    Inv collector sets (update notes thread .idle) :=
  inv.note (fun _ same => nomatch same) (fun _ same => nomatch same) (fun same => nomatch same)

omit [DecidableEq α] in
theorem Inv.make (inv : Inv collector sets notes) (none' : sets.cached = none) :
    Inv collector { sets with cached := some sets.made, made := sets.made + 1,
                              items := update sets.items sets.made [] } notes where
  kept item inserted := by
    rcases inv.kept item inserted with ⟨set, cached, _⟩ | saved
    · rw [none'] at cached
      cases cached
    · exact Or.inr saved
  holding thread set held := by
    have cached := inv.holding thread set held
    rw [none'] at cached
    cases cached
  fetched items _ set cached item member := by
    have same : sets.made = set := Option.some.inj cached
    simp [same] at member
  saved _ set cached item member := by
    have same : sets.made = set := Option.some.inj cached
    simp [same] at member

theorem Inv.insert (inv : Inv collector sets notes) {set : Nat} (cached : sets.cached = some set) (item : α)
    (idle : notes .recorder ≠ .saved ∧ ∀ items, notes .recorder ≠ .fetched items) :
    Inv collector { sets with items := update sets.items set ((sets.items set).insert item),
                              inserted := item :: sets.inserted } notes where
  kept other inserted := by
    rcases List.mem_cons.mp inserted with rfl | earlier
    · exact Or.inl ⟨set, cached, by simp⟩
    · rcases inv.kept other earlier with ⟨set', cached', member⟩ | saved
      · have same : set = set' := Option.some.inj (cached.symm.trans cached')
        subst same
        exact Or.inl ⟨set, cached, by simp [member]⟩
      · exact Or.inr saved
  holding := inv.holding
  fetched items known := absurd known (idle.2 items)
  saved known := absurd known idle.1

omit [DecidableEq α] in
theorem Saved.cons {item : α} (saved : Saved collector sets item) (profile : Spec) :
    Saved collector { sets with stored := profile :: sets.stored } item := by
  obtain ⟨stored, member, contained⟩ := saved
  exact ⟨stored, List.mem_cons_of_mem _ member, contained⟩

theorem Inv.store (inv : Inv collector sets notes) {items : List α} {profile : Spec} {note : Note α}
    (fetched : notes .recorder = .fetched items) (built : collector.build items = .ok profile)
    (ends : note = .saved ∨ note = .idle) :
    Inv collector { sets with stored := profile :: sets.stored } (update notes .recorder note) := by
  have kept : Inv collector { sets with stored := profile :: sets.stored } notes := by
    refine ⟨fun item inserted => ?_, inv.holding, inv.fetched, fun known => ?_⟩
    · rcases inv.kept item inserted with cached | saved
      · exact Or.inl cached
      · exact Or.inr (saved.cons profile)
    · rw [fetched] at known
      cases known
  refine kept.note (fun _ same => ?_) (fun _ same => ?_) fun _ set cached item member => ?_
  · rcases ends with rfl | rfl <;> cases same
  · rcases ends with rfl | rfl <;> cases same
  · exact ⟨profile, List.mem_cons_self,
      collector.complete built item (inv.fetched items fetched set cached item member)⟩

theorem Inv.reset (inv : Inv collector sets notes) (saved : notes .recorder = .saved)
    (nobody : ∀ number item set, notes (.dispatcher number item) ≠ .holding set) :
    Inv collector { sets with cached := none } (update notes .recorder .idle) := by
  have kept : Inv collector { sets with cached := none } notes := by
    refine ⟨fun item inserted => Or.inr ?_, fun thread set held => ?_, fun _ _ _ cached => (nomatch cached),
      fun _ _ cached => (nomatch cached)⟩
    · rcases inv.kept item inserted with ⟨set, cached, member⟩ | stored
      · exact inv.saved saved set cached item member
      · exact stored
    · cases thread with
      | dispatcher number item => exact absurd held (nobody number item set)
      | recorder =>
        rw [saved] at held
        cases held
  exact kept.idle .recorder

def discipline (collector : Collector α) : Discipline (enricher α) (Thread α) (Note α) where
  inv := Inv collector
  agrees op note :=
    match op with
    | .insert set _ => note = .holding set
    | .store profile => ∃ items, note = .fetched items ∧ collector.build items = .ok profile
    | .reset => note = .saved
    | _ => note = .idle
  idle := .idle
  allows sets notes thread op _ :=
    match thread, op with
    | .dispatcher _ _, .insert _ _ => notes .recorder ≠ .saved ∧ ∀ items, notes .recorder ≠ .fetched items
    | .recorder, .reset => ∀ number item set, notes (.dispatcher number item) ≠ .holding set
    | .recorder, .store _ => sets.foreign = false
    | _, _ => True

end inv

section safe

variable (collector : Collector α)

theorem safe_dispatchLine (number : Nat) (item : α) :
    (discipline collector).Safe (.dispatcher number item) (fun _ note => note = .idle)
      (dispatchLine item) .idle := by
  refine ⟨rfl, fun sets notes inv here choice set after _ performed => ⟨.holding set, ?_, rfl, ?_⟩⟩
  · simp only [enricher, Sets.perform] at performed
    split at performed
    · next cached =>
        cases performed
        refine Inv.note inv (fun _ same => ?_) (fun _ same => nomatch same) (fun same => nomatch same)
        cases same
        exact cached
    · next none' =>
        cases performed
        refine Inv.note (Inv.make inv none') (fun _ same => ?_) (fun _ same => nomatch same)
          (fun same => nomatch same)
        cases same
        rfl
  · intro sets notes inv here choice _ after allowed performed
    cases performed
    exact ⟨.idle, Inv.idle (Inv.insert inv (inv.holding _ _ here) item allowed) _, rfl⟩

theorem safe_reset {β : Type} {rest : Bool → Prog (enricher α) β} {post : β → Note α → Prop}
    (continues : ∀ reset, (discipline collector).Safe .recorder post (rest reset) .idle) :
    (discipline collector).Safe .recorder post (.call Op.reset rest) .saved := by
  refine ⟨rfl, fun sets notes inv here choice answer after allowed performed => ⟨.idle, ?_, continues answer⟩⟩
  simp only [enricher, Sets.perform] at performed
  split at performed
  · cases performed
    exact Inv.idle inv .recorder
  · cases performed
    exact Inv.reset inv here allowed

/-- The note for items that are fetched, which is of no use if no profile can be built from them. -/
def noteOf (items : List α) : Note α :=
  match collector.build items with
  | .error _ => .idle
  | .ok _ => .fetched items

/-- Fetching ends with the items that the recorder knows now, or with none left. -/
theorem safe_fetchData : (discipline collector).Safe .recorder
    (fun result note => (∃ items, result = some (some items) ∧ note = noteOf collector items) ∨
      ((∀ items, result ≠ some (some items)) ∧ note = .idle)) fetchData .idle := by
  refine ⟨rfl, fun sets notes inv here choice answer after _ performed => ?_⟩
  cases choice with
  | refuse =>
    cases performed
    exact ⟨.idle, Inv.idle inv .recorder, Or.inr ⟨by simp, rfl⟩⟩
  | lose =>
    cases performed
    exact ⟨.idle, Inv.idle inv .recorder, Or.inr ⟨by simp, rfl⟩⟩
  | serve =>
    cases performed
    cases cached : sets.cached with
    | none =>
      refine ⟨.saved, Inv.note inv (fun _ same => nomatch same) (fun _ same => nomatch same) fun _ set isCached =>
        ?_, ?_⟩
      · rw [cached] at isCached
        cases isCached
      · refine safe_reset collector fun reset => Or.inr ⟨fun items => ?_, rfl⟩
        cases reset <;> simp
    | some set =>
      refine ⟨noteOf collector (sets.items set), ?_, Or.inl ⟨sets.items set, rfl, rfl⟩⟩
      unfold noteOf
      split
      · exact Inv.idle inv .recorder
      refine Inv.note inv (fun _ same => nomatch same) (fun items same set' isCached item member => ?_)
        (fun same => nomatch same)
      cases same
      have sameSet : set = set' := Option.some.inj (cached.symm.trans isCached)
      exact sameSet ▸ member

theorem safe_storeAndReset {items : List α} {profile : Spec} (built : collector.build items = .ok profile) :
    (discipline collector).Safe .recorder (fun _ note => note = .idle)
      (.call (Op.store profile) fun (stored : Bool) => if stored then .call Op.reset .ret else .ret false :
        Prog (enricher α) Bool) (.fetched items) := by
  refine ⟨⟨items, rfl, built⟩, fun sets notes inv here choice stored after allowed performed => ?_⟩
  simp only [enricher, Sets.perform] at performed
  split at performed
  · cases performed
    exact ⟨.idle, Inv.idle inv .recorder, rfl⟩
  split at performed
  · next foreign =>
      rw [show sets.foreign = false from allowed] at foreign
      cases foreign
  cases choice with
  | refuse => contradiction
  | lose =>
    cases performed
    exact ⟨.idle, Inv.store inv here built (Or.inr rfl), rfl⟩
  | serve =>
    cases performed
    exact ⟨.saved, Inv.store inv here built (Or.inl rfl), safe_reset collector fun _ => rfl⟩

theorem safe_collectLogProfileGeneric : (discipline collector).Safe .recorder (fun _ note => note = .idle)
    (collectLogProfileGeneric collector) .idle := by
  refine ⟨rfl, fun sets notes inv here choice held after _ performed => ?_⟩
  have unchanged : after = sets := (Prod.mk.inj (Option.some.inj performed)).2.symm
  rw [unchanged]
  refine ⟨.idle, Inv.idle inv .recorder, ?_⟩
  cases held with
  | false => rfl
  | true =>
    refine .bind ((safe_fetchData collector).imp fun result note ended => ?_)
    rcases ended with ⟨items, rfl, rfl⟩ | ⟨nothing, rfl⟩
    · cases built : collector.build items with
      | error error => simp only [noteOf, built, Discipline.Safe]
      | ok profile =>
        simp only [noteOf, built]
        exact safe_storeAndReset collector built
    · rcases result with _ | _ | items
      · rfl
      · rfl
      · exact absurd rfl (nothing items)

/-- In every undisturbed run each inserted item is still in the set or in a stored profile. -/
theorem inv_of_reach {world : World (enricher α) (Thread α)}
    (reach : World.Reach (Thread.code collector) Undisturbed (.idle .initial) world) :
    ∃ notes, (discipline collector).Noted world notes := by
  refine Discipline.noted_of_reach reach ?_ (fun thread => ?_) ?_ ?_
  · exact ⟨fun _ member => (nomatch member), fun _ _ same => (nomatch same), fun _ same => (nomatch same),
      fun same => (nomatch same)⟩
  · cases thread with
    | dispatcher number item => exact safe_dispatchLine collector number item
    | recorder => exact .bind ((safe_collectLogProfileGeneric collector).imp fun _ _ idle => idle)
  · intro world notes thread choice op permitted noted comes
    cases thread with
    | dispatcher number item =>
      cases op with
      | insert set item' =>
        have notCollecting := permitted ⟨set, item', comes⟩
        cases next : (world.threads .recorder).next? with
        | none => simp [discipline, noted.idle next]
        | some op =>
          have agrees := noted.agrees next
          cases op with
          | reset => exact absurd ⟨_, next, Or.inl rfl⟩ notCollecting
          | store profile => exact absurd ⟨_, next, Or.inr ⟨profile, rfl⟩⟩ notCollecting
          | insert set' _ => simp [discipline, show notes .recorder = .holding set' from agrees]
          | _ => simp [discipline, show notes .recorder = .idle from agrees]
      | _ => trivial
    | recorder =>
      cases op with
      | store profile => exact permitted.2 ⟨profile, comes⟩
      | reset =>
        intro number item set held
        cases next : (world.threads (.dispatcher number item)).next? with
        | none =>
          rw [noted.idle next] at held
          cases held
        | some op =>
          have agrees := noted.agrees next
          cases op with
          | insert set' item' => exact permitted.1 comes number item set' item' next
          | store profile =>
            obtain ⟨items, fetched, _⟩ := agrees
            rw [fetched] at held
            cases held
          | reset =>
            rw [show notes (.dispatcher number item) = .saved from agrees] at held
            cases held
          | _ =>
            rw [show notes (.dispatcher number item) = .idle from agrees] at held
            cases held
      | _ => trivial
  · intro world notes foreign after _ noted occurred
    cases Option.some.inj occurred
    exact ⟨noted.inv.kept, noted.inv.holding, noted.inv.fetched, noted.inv.saved⟩

end safe

/-- In every undisturbed run, all items that were inserted are contained in stored profiles when the recorder is
about to reset them. -/
theorem inserted_items_stored (collector : Collector α) {world : World (enricher α) (Thread α)}
    (reach : World.Reach (Thread.code collector) Undisturbed (.idle .initial) world)
    (resets : (world.threads .recorder).next? = some .reset) :
    ∀ item ∈ world.state.inserted, ∃ profile ∈ world.state.stored, profile.Contains (collector.rule item) := by
  obtain ⟨notes, noted⟩ := inv_of_reach collector reach
  have inv : Inv collector world.state notes := noted.inv
  have saved : notes .recorder = .saved := noted.agrees resets
  intro item inserted
  rcases inv.kept item inserted with ⟨set, cached, member⟩ | stored
  · exact inv.saved saved set cached item member
  · exact stored

section runs

/-- An item is inserted, and fetched by the recorder. -/
def insertAndFetch : List (Act (enricher String) (Thread String)) :=
  [.start (.dispatcher 0 "read"), .step (.dispatcher 0 "read") .serve, .step (.dispatcher 0 "read") .serve,
    .start .recorder, .step .recorder .serve, .step .recorder .serve]

def insertMore : List (Act (enricher String) (Thread String)) :=
  [.start (.dispatcher 1 "write"), .step (.dispatcher 1 "write") .serve, .step (.dispatcher 1 "write") .serve]

/-- The recorder is idle when an item is inserted, and does not reset. -/
def insertsWhenIdle (world : World (enricher String) (Thread String)) : Act (enricher String) (Thread String) → Bool
  | .step (.dispatcher _ _) _ => (world.threads .recorder).next?.isNone
  | .step .recorder _ => !world.state.foreign &&
      match (world.threads .recorder).next? with
      | some .reset => false
      | _ => true
  | _ => true

/-- The recorder is about to reset the items, of which it stored the given ones. -/
def resetsWith (inserted stored : List String) (world : World (enricher String) (Thread String)) : Bool :=
  (match (world.threads .recorder).next? with
    | some .reset => true
    | _ => false) &&
  decide (world.state.inserted = inserted) && decide (world.state.stored = [seccompAllowing [.x86_64] stored])

theorem resetsWith_iff {inserted stored : List String} {world : World (enricher String) (Thread String)} :
    resetsWith inserted stored world = true ↔ (world.threads .recorder).next? = some .reset ∧
      world.state.inserted = inserted ∧ world.state.stored = [seccompAllowing [.x86_64] stored] := by
  unfold resetsWith
  split
  · next comes => simp [comes]
  · next other => exact iff_of_false (by simp) fun ends => other ends.1

theorem read_is_stored : ∃ world : World (enricher String) (Thread String),
    World.Reach (Thread.code (seccompCollector (some .x86_64))) Undisturbed (.idle .initial) world ∧
    (world.threads .recorder).next? = some .reset ∧ world.state.inserted = ["read"] ∧
    ∃ profile ∈ world.state.stored, profile.Contains (syscallRule "read") := by
  have ran : ((World.idle Sets.initial).run (Thread.code (seccompCollector (some .x86_64))) insertsWhenIdle
      (insertAndFetch ++ [.step .recorder .serve])).any (resetsWith ["read"] ["read"]) = true := by decide
  have sound : ∀ world act, insertsWhenIdle world act = true → Undisturbed world act := by
    intro world act checked
    cases act with
    | start thread => trivial
    | event event => trivial
    | step thread choice =>
      cases thread with
      | dispatcher number item =>
        rintro _ ⟨op, comes, _⟩
        simp [insertsWhenIdle, comes] at checked
      | recorder =>
        simp only [insertsWhenIdle, Bool.and_eq_true, Bool.not_eq_true'] at checked
        refine ⟨fun comes => ?_, fun _ => checked.1⟩
        rw [comes] at checked
        exact nomatch checked.2
  obtain ⟨world, reach, ends⟩ := World.exists_of_any ran sound
  obtain ⟨resets, inserted, _⟩ := resetsWith_iff.mp ends
  exact ⟨world, reach, resets, inserted,
    inserted_items_stored (seccompCollector (some .x86_64)) reach resets "read" (by rw [inserted]; decide)⟩

/-- An item that is inserted after the recorder fetched is in no stored profile when the items are reset. -/
theorem late_item_lost : ∃ world : World (enricher String) (Thread String),
    World.Reach (Thread.code (seccompCollector (some .x86_64))) (fun _ _ => True) (.idle .initial) world ∧
    (world.threads .recorder).next? = some .reset ∧ "write" ∈ world.state.inserted ∧
    ¬∃ profile ∈ world.state.stored, profile.Contains (syscallRule "write") := by
  have ran : ((World.idle Sets.initial).run (Thread.code (seccompCollector (some .x86_64))) (fun _ _ => true)
      (insertAndFetch ++ insertMore ++ [.step .recorder .serve])).any (resetsWith ["write", "read"] ["read"]) =
        true := by
    decide
  have sound : ∀ (world : World (enricher String) (Thread String)) (act : Act (enricher String) (Thread String)),
      true = true → True := fun _ _ _ => trivial
  obtain ⟨world, reach, ends⟩ := World.exists_of_any ran sound
  obtain ⟨resets, inserted, stored⟩ := resetsWith_iff.mp ends
  refine ⟨world, reach, resets, by rw [inserted]; decide, ?_⟩
  rintro ⟨profile, member, contained⟩
  rw [stored, List.mem_singleton] at member
  subst member
  exact absurd contained (by show ¬SyscallRules _ _; decide)

end runs

end SecurityProfiles.Handover
