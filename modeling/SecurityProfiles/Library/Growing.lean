import SecurityProfiles.Library.CreateOrUpdate

namespace VersionedStore

variable {K O E P : Type} [DecidableEq K]

/-- Which objects grow, in what, and when one of them may be built upon. -/
structure Growth (K O P : Type) where
  keys : K → Prop
  content : O → P
  since : Nat
  good : Stored O → Prop

namespace Growth

variable [Preorder P] (growth : Growth K O P)

/-- The server holds at least what it ever held. -/
structure Inv (server : Server K O) : Prop where
  time : growth.since ≤ server.clock
  good : ∀ {key stored}, growth.keys key → server.Holds key stored → growth.good stored
  kept : ∀ {key stored}, growth.keys key → server.Seen key stored →
    ∃ current, server.Holds key current ∧ growth.content stored.body ≤ growth.content current.body

/-- The second server holds at least what the first one does. -/
structure Grows (first second : Server K O) : Prop where
  seen : ∀ {key stored}, first.Seen key stored → second.Seen key stored
  held : ∀ {key stored}, growth.keys key → first.Holds key stored →
    ∃ current, second.Holds key current ∧ growth.content stored.body ≤ growth.content current.body

variable {growth}

theorem Grows.refl (server : Server K O) : growth.Grows server server where
  seen := id
  held {_ stored} _ held := ⟨stored, held, le_refl _⟩

variable {first second server : Server K O} {key : K} {contribution : P} {change : Option (Stored O) → Except E O}
  {object : O} {result : Except (Fault E) Unit}

theorem Grows.trans {third : Server K O} (left : growth.Grows first second)
    (right : growth.Grows second third) : growth.Grows first third where
  seen seenFirst := right.seen (left.seen seenFirst)
  held isKey held := by
    obtain ⟨middle, heldMiddle, below⟩ := left.held isKey held
    obtain ⟨current, heldCurrent, below'⟩ := right.held isKey heldMiddle
    exact ⟨current, heldCurrent, le_trans below below'⟩

/-- The contribution is in the stored object. -/
def Contains (growth : Growth K O P) (key : K) (contribution : P) (server : Server K O) : Prop :=
  ∃ current, server.Holds key current ∧ contribution ≤ growth.content current.body

theorem Contains.later (isKey : growth.keys key) (contains : growth.Contains key contribution first)
    (grows : growth.Grows first second) : growth.Contains key contribution second := by
  obtain ⟨stored, held, below⟩ := contains
  obtain ⟨current, heldCurrent, below'⟩ := grows.held isKey held
  exact ⟨current, heldCurrent, le_trans below below'⟩

/-- A write that replaces an object by a larger one. -/
theorem Inv.put (inv : growth.Inv server) (stored : Stored O) (known : stored.uid ≤ server.revision + 1)
    (good : growth.keys key → growth.good (stored.stamp (server.revision + 1)))
    (larger : ∀ {current}, growth.keys key → server.Holds key current →
      growth.content current.body ≤ growth.content stored.body) :
    growth.Grows server (server.put key stored known) ∧ growth.Inv (server.put key stored known) := by
  have grows : growth.Grows server (server.put key stored known) := by
    refine ⟨fun seen => Server.seen_put.mpr (Or.inl seen), ?_⟩
    intro key' current isKey held
    by_cases same : key' = key
    · subst same
      exact ⟨_, Server.holds_put_self, larger isKey held⟩
    · exact ⟨current, (Server.holds_put_ne same).mpr held, le_refl _⟩
  refine ⟨grows, inv.time, ?_, ?_⟩
  · intro key' current isKey held
    rcases Server.holds_put.mp held with ⟨rfl, rfl⟩ | ⟨_, held⟩
    · exact good isKey
    · exact inv.good isKey held
  · intro key' earlier isKey seen
    rcases Server.seen_put.mp seen with seen | ⟨rfl, rfl⟩
    · obtain ⟨current, held, below⟩ := inv.kept isKey seen
      obtain ⟨latest, heldLatest, below'⟩ := grows.held isKey held
      exact ⟨latest, heldLatest, le_trans below below'⟩
    · exact ⟨_, Server.holds_put_self, le_refl _⟩

/-- A change of one object that adds a contribution and keeps the rest. -/
structure Adds (growth : Growth K O P) (change : Option (Stored O) → Except E O) (contribution : P) : Prop where
  adds : ∀ {base object}, change base = .ok object → contribution ≤ growth.content object
  keeps : ∀ {stored object}, change (some stored) = .ok object → growth.good stored →
    growth.content stored.body ≤ growth.content object
  goodNew : ∀ {object uid version created}, change none = .ok object → growth.since ≤ created →
    growth.good { uid := uid, version := version, created := created, deleting := false, body := object }
  goodNext : ∀ {stored object version}, change (some stored) = .ok object → growth.good stored →
    growth.good (Stored.stamp { stored with body := object } version)

section

variable (adds : growth.Adds change contribution)
include adds

theorem Adds.create {changed : Server K O} (inv : growth.Inv server) (computed : change none = .ok object)
    (created : server.create key object = .ok changed) :
    growth.Grows server changed ∧ growth.Inv changed ∧ growth.Contains key contribution changed := by
  obtain ⟨absent, known, rfl⟩ := Server.create_ok created
  have kept := inv.put _ known (fun _ => adds.goodNew computed inv.time) fun _ held => by
    rw [Server.Holds, absent] at held
    cases held
  exact ⟨kept.1, kept.2, _, Server.holds_put_self, adds.adds computed⟩

theorem Adds.update {current : Stored O} (isKey : growth.keys key) (inv : growth.Inv server)
    (held : server.Holds key current) (computed : change (some current) = .ok object)
    (known : current.uid ≤ server.revision + 1) :
    growth.Grows server (server.put key { current with body := object } known) ∧
      growth.Inv (server.put key { current with body := object } known) ∧
      growth.Contains key contribution (server.put key { current with body := object } known) := by
  have good := inv.good isKey held
  have kept := inv.put { current with body := object } known (fun _ => adds.goodNext computed good)
    fun _ held' => by
      rw [← held.unique held']
      exact adds.keeps computed good
  exact ⟨kept.1, kept.2, _, Server.holds_put_self, adds.adds computed⟩

theorem Adds.unchanged {stored : Stored O}
    (isKey : growth.keys key) (inv : growth.Inv server) (seen : server.Seen key stored)
    (computed : change (some stored) = .ok stored.body) : growth.Contains key contribution server := by
  obtain ⟨current, held, below⟩ := inv.kept isKey seen
  exact ⟨current, held, le_trans (adds.adds computed) below⟩

end

/-- Others do no harm as long as they leave the objects alone. -/
theorem Inv.disturb (inv : growth.Inv server) {disturbance : Server.Disturbance K O}
    (untouched : ∀ key, growth.keys key →
      (server.disturb disturbance).objects.lookup key = server.objects.lookup key) :
    growth.Grows server (server.disturb disturbance) ∧ growth.Inv (server.disturb disturbance) := by
  have held : ∀ {key stored}, growth.keys key →
      ((server.disturb disturbance).Holds key stored ↔ server.Holds key stored) := by
    intro key stored isKey
    rw [Server.Holds, Server.Holds, untouched key isKey]
  refine ⟨⟨fun seen => seen.disturb disturbance, fun {_ stored} isKey holds =>
    ⟨stored, (held isKey).mpr holds, le_refl _⟩⟩, le_trans inv.time (server.clock_le_disturb disturbance), ?_, ?_⟩
  · intro key stored isKey holds
    exact inv.good isKey ((held isKey).mp holds)
  · intro key stored isKey seen
    rcases Server.seen_disturb_cases seen with older | holds
    · obtain ⟨current, holds, below⟩ := inv.kept isKey older
      exact ⟨current, (held isKey).mpr holds, below⟩
    · exact ⟨stored, holds, le_refl _⟩

/-- Everybody keeps the objects growing. -/
def contract (growth : Growth K O P) : Contract K O where
  inv := growth.Inv
  rely := growth.Grows
  guar first second := growth.Inv first → growth.Grows first second ∧ growth.Inv second
  rely_refl := Grows.refl
  rely_trans := Grows.trans
  rely_seen grows := grows.seen
  guar_refl server inv := ⟨Grows.refl server, inv⟩
  guar_rely inv guaranteed := guaranteed inv

/-- A change that was refused was so for an object that was there, or for none. -/
def Refused (key : K) (change : Option (Stored O) → Except E O) (server : Server K O) :
    Except (Fault E) Unit → Prop
  | .error (.refused error) => ∃ base, (∀ stored, base = some stored → server.Seen key stored) ∧
      change base = .error error
  | _ => True

theorem Refused.later (refused : Refused key change first result) (grows : growth.Grows first second) :
    Refused key change second result := by
  rcases result with (error | error) | _
  · obtain ⟨base, seen, refused⟩ := refused
    exact ⟨base, fun stored found => grows.seen (seen stored found), refused⟩
  · trivial
  · trivial

/-- How a write of a contribution ends. -/
structure Ended (growth : Growth K O P) (key : K) (change : Option (Stored O) → Except E O) (contribution : P)
    (server : Server K O) (result : Except (Fault E) Unit) : Prop where
  contains : result = .ok () → growth.Contains key contribution server
  refused : Refused key change server result

theorem Ended.later (ended : growth.Ended key change contribution first result) (isKey : growth.keys key)
    (grows : growth.Grows first second) : growth.Ended key change contribution second result :=
  ⟨fun ok => (ended.contains ok).later isKey grows, ended.refused.later grows⟩

theorem Adds.writes [DecidableEq O] (adds : growth.Adds change contribution) (isKey : growth.keys key) :
    growth.contract.Writes key change (growth.Ended key change contribution) where
  stable _ _ _ grows _ ended := ended.later isKey grows
  api _ := ⟨by simp, trivial⟩
  refused _ seen refused := ⟨by simp, _, seen, refused⟩
  unchanged inv seen computed := ⟨fun _ => adds.unchanged isKey inv seen computed, trivial⟩
  create inv computed created := by
    have kept := adds.create inv computed created
    exact ⟨fun _ => ⟨kept.1, kept.2.1⟩, fun _ => kept.2.2, trivial⟩
  update inv held computed changed := by
    obtain ⟨known, rfl⟩ := changed
    have kept := adds.update isKey inv held computed known
    exact ⟨fun _ => ⟨kept.1, kept.2.1⟩, fun _ => kept.2.2, trivial⟩

/-- Writes to other objects do not matter. -/
theorem writes_elsewhere [DecidableEq O] (growth : Growth K O P) (change : Option (Stored O) → Except E O)
    (elsewhere : ¬ growth.keys key) : growth.contract.Writes key change (Refused key change) where
  stable _ _ _ grows _ refused := refused.later grows
  api _ := trivial
  refused _ seen refused := ⟨_, seen, refused⟩
  unchanged _ _ _ := trivial
  create inv _ created := by
    obtain ⟨_, known, rfl⟩ := Server.create_ok created
    exact ⟨fun _ => inv.put _ known (fun isKey => absurd isKey elsewhere) fun isKey =>
      absurd isKey elsewhere, trivial⟩
  update inv _ _ changed := by
    obtain ⟨known, rfl⟩ := changed
    exact ⟨fun _ => inv.put _ known (fun isKey => absurd isKey elsewhere) fun isKey =>
      absurd isKey elsewhere, trivial⟩

end Growth

end VersionedStore
