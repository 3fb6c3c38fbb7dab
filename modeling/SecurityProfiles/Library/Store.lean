import Mathlib.Data.List.AList

namespace VersionedStore

open List

/-- An object together with what the store itself keeps about it. -/
structure Stored (O : Type) where
  uid : Nat
  version : Nat
  created : Nat
  deleting : Bool
  body : O
deriving DecidableEq

namespace Stored

variable {O : Type}

def stamp (stored : Stored O) (version : Nat) : Stored O := { stored with version := version }

@[simp] theorem stamp_version (stored : Stored O) (version : Nat) : (stored.stamp version).version = version := rfl

end Stored

/-- The failures of a call, as far as clients tell them apart. -/
inductive ApiError where
  | notFound
  | conflict
  | alreadyExists
  | other
deriving DecidableEq

def isNotFoundOrConflict : ApiError → Bool
  | .notFound => true
  | .conflict => true
  | _ => false

def ignoreNotFound : Except ApiError Unit → Except ApiError Unit
  | .error .notFound => .ok ()
  | result => result

/-- One state of all objects. -/
abbrev Objects (K O : Type) := AList fun _ : K => Stored O

variable {K O : Type} [DecidableEq K]

/-- Some of the given states holds the object under the key. -/
def SeenIn (views : List (Objects K O)) (key : K) (stored : Stored O) : Prop :=
  ∃ view ∈ views, view.lookup key = some stored

/-- The store with all its earlier states. Versions and identities are drawn from one counter, so a version
under a key determines the object that was read with it. -/
structure Server (K O : Type) [DecidableEq K] where
  objects : Objects K O
  past : List (Objects K O)
  revision : Nat
  clock : Nat
  issued : ∀ key stored, SeenIn (objects :: past) key stored → stored.version ≤ revision ∧ stored.uid ≤ revision
  coherent : ∀ key stored stored', SeenIn (objects :: past) key stored → SeenIn (objects :: past) key stored' →
    stored.version = stored'.version → stored = stored'

namespace Server

def views (server : Server K O) : List (Objects K O) := server.objects :: server.past

/-- The object is stored under the key now. -/
def Holds (server : Server K O) (key : K) (stored : Stored O) : Prop :=
  server.objects.lookup key = some stored

/-- The object was stored under the key at some time. -/
def Seen (server : Server K O) (key : K) (stored : Stored O) : Prop := SeenIn server.views key stored

variable {server : Server K O} {key key' : K} {stored stored' : Stored O} {objects : Objects K O}
  {past : List (Objects K O)}

theorem Holds.seen (held : server.Holds key stored) :
    server.Seen key stored :=
  ⟨server.objects, by simp [views], held⟩

theorem Holds.unique (held : server.Holds key stored) (held' : server.Holds key stored') : stored = stored' :=
  Option.some.inj (held.symm.trans held')

theorem Seen.uid_le (seen : server.Seen key stored) :
    stored.uid ≤ server.revision :=
  (server.issued key stored seen).2

/-- An object read earlier is the stored one if the versions agree. -/
theorem Seen.eq_of_version {current : Stored O} (seen : server.Seen key stored) (held : server.Holds key current)
    (same : current.version = stored.version) : current = stored :=
  server.coherent key current stored held.seen seen same

def empty (clock : Nat) : Server K O where
  objects := ∅
  past := []
  revision := 0
  clock := clock
  issued := by rintro key stored ⟨view, member, found⟩; simp_all
  coherent := by rintro key stored stored' ⟨view, member, found⟩; simp_all

theorem seenIn_insert :
    SeenIn (objects.insert key stored :: objects :: past) key' stored' ↔
      SeenIn (objects :: past) key' stored' ∨ (key' = key ∧ stored' = stored) := by
  constructor
  · rintro ⟨view, member, found⟩
    rcases mem_cons.mp member with rfl | older
    · by_cases same : key' = key
      · subst same
        rw [AList.lookup_insert] at found
        exact Or.inr ⟨rfl, (Option.some.inj found).symm⟩
      · rw [AList.lookup_insert_ne same] at found
        exact Or.inl ⟨objects, mem_cons_self, found⟩
    · exact Or.inl ⟨view, older, found⟩
  · rintro (⟨view, member, found⟩ | ⟨rfl, rfl⟩)
    · exact ⟨view, mem_cons_of_mem _ member, found⟩
    · exact ⟨_, mem_cons_self, AList.lookup_insert _⟩

theorem seenIn_erase :
    SeenIn (objects.erase key :: objects :: past) key' stored' ↔ SeenIn (objects :: past) key' stored' := by
  constructor
  · rintro ⟨view, member, found⟩
    rcases mem_cons.mp member with rfl | older
    · by_cases same : key' = key
      · subst same
        rw [AList.lookup_erase] at found
        cases found
      · rw [AList.lookup_erase_ne same] at found
        exact ⟨objects, mem_cons_self, found⟩
    · exact ⟨view, older, found⟩
  · rintro ⟨view, member, found⟩
    exact ⟨view, mem_cons_of_mem _ member, found⟩

/-- Write an object under a key with the next version. -/
def put (server : Server K O) (key : K) (stored : Stored O) (known : stored.uid ≤ server.revision + 1) :
    Server K O where
  objects := server.objects.insert key (stored.stamp (server.revision + 1))
  past := server.views
  revision := server.revision + 1
  clock := server.clock
  issued := by
    intro key' stored' seen
    rcases seenIn_insert.mp seen with older | ⟨rfl, rfl⟩
    · have bounds := server.issued key' stored' older
      omega
    · exact ⟨le_refl _, known⟩
  coherent := by
    intro key' first second seenFirst seenSecond same
    rcases seenIn_insert.mp seenFirst with olderFirst | ⟨rfl, rfl⟩ <;>
      rcases seenIn_insert.mp seenSecond with olderSecond | ⟨atKey, rfl⟩
    · exact server.coherent key' first second olderFirst olderSecond same
    · have bound := (server.issued key' first olderFirst).1
      simp only [Stored.stamp_version] at same
      omega
    · have bound := (server.issued _ second olderSecond).1
      simp only [Stored.stamp_version] at same
      omega
    · rfl

def drop (server : Server K O) (key : K) : Server K O where
  objects := server.objects.erase key
  past := server.views
  revision := server.revision
  clock := server.clock
  issued := fun key' stored' seen => server.issued key' stored' (seenIn_erase.mp seen)
  coherent := fun key' first second seenFirst seenSecond =>
    server.coherent key' first second (seenIn_erase.mp seenFirst) (seenIn_erase.mp seenSecond)

def wait (server : Server K O) (ticks : Nat) : Server K O := { server with clock := server.clock + ticks }

/-- The same objects, with no earlier states to be read. -/
def forget (server : Server K O) : Server K O where
  objects := server.objects
  past := []
  revision := server.revision
  clock := server.clock
  issued := by
    intro key stored ⟨view, member, found⟩
    cases mem_singleton.mp member
    exact server.issued key stored ⟨_, mem_cons_self, found⟩
  coherent := by
    intro key stored stored' ⟨view, member, found⟩ ⟨view', member', found'⟩ _
    cases mem_singleton.mp member
    cases mem_singleton.mp member'
    exact Option.some.inj (found.symm.trans found')

section lemmas

variable {server : Server K O} {key key' : K} {stored stored' : Stored O}
  {known : stored.uid ≤ server.revision + 1}

@[simp] theorem seen_put : (server.put key stored known).Seen key' stored' ↔
    server.Seen key' stored' ∨ (key' = key ∧ stored' = stored.stamp (server.revision + 1)) :=
  seenIn_insert

@[simp] theorem seen_drop : (server.drop key).Seen key' stored' ↔ server.Seen key' stored' := seenIn_erase

theorem holds_put_self : (server.put key stored known).Holds key (stored.stamp (server.revision + 1)) :=
  AList.lookup_insert _

theorem holds_put_ne (other : key' ≠ key) :
    (server.put key stored known).Holds key' stored' ↔ server.Holds key' stored' := by
  simp only [Holds, put, AList.lookup_insert_ne other]

theorem holds_put : (server.put key stored known).Holds key' stored' ↔
    (key' = key ∧ stored' = stored.stamp (server.revision + 1)) ∨ (key' ≠ key ∧ server.Holds key' stored') := by
  by_cases same : key' = key
  · subst same
    refine ⟨fun held => Or.inl ⟨rfl, held.unique holds_put_self⟩, ?_⟩
    rintro (⟨_, rfl⟩ | ⟨other, _⟩)
    · exact holds_put_self
    · exact absurd rfl other
  · rw [holds_put_ne same]
    simp [same]

theorem holds_drop : (server.drop key).Holds key' stored' ↔ key' ≠ key ∧ server.Holds key' stored' := by
  by_cases same : key' = key
  · subst same
    simp [Holds, drop, AList.lookup_erase]
  · simp [Holds, drop, AList.lookup_erase_ne same, same]

end lemmas

end Server

end VersionedStore
