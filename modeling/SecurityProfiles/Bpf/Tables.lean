import Mathlib.Data.Finset.Sort
import Mathlib.Data.String.Basic
import SecurityProfiles.Library.SortedMap
import SecurityProfiles.Library.Text

namespace SecurityProfiles.Bpf

open Text List

/-- The containers of keys and the keys of containers, of which a container owns so many at most. -/
structure ContainerKeys where
  byKey : SortedMap Nat String
  byContainer : SortedMap String (Finset Nat)
  maxPerContainer : Nat

namespace ContainerKeys

def new (maxPerContainer : Nat) : ContainerKeys := ⟨.empty, .empty, maxPerContainer⟩

def removeKeyFrom (table : ContainerKeys) (containerID : String) (key : Nat) : ContainerKeys :=
  { table with byContainer := table.byContainer.put containerID ((table.byContainer.get containerID).erase key) }

/-- A key that another container owned is detached from it. -/
def detach (table : ContainerKeys) (key : Nat) (containerID : String) : ContainerKeys :=
  match table.byKey.lookup key with
  | some oldID => if oldID ≠ containerID then table.removeKeyFrom oldID key else table
  | none => table

def insert (table : ContainerKeys) (key : Nat) (containerID : String) : Bool × ContainerKeys :=
  let keys := table.byContainer.get containerID
  if key ∈ keys then (true, table)
  else if keys.card ≥ table.maxPerContainer then (false, table)
  else
    let detached := table.detach key containerID
    (true, { detached with
      byKey := detached.byKey.insert key containerID
      byContainer := detached.byContainer.insert containerID (Insert.insert key keys) })

def delete (table : ContainerKeys) (key : Nat) : ContainerKeys :=
  match table.byKey.lookup key with
  | some containerID => { table.removeKeyFrom containerID key with byKey := table.byKey.erase key }
  | none => table

def deleteContainer (table : ContainerKeys) (containerID : String) : ContainerKeys :=
  { table with
    byKey := table.byKey.eraseAll (table.byContainer.get containerID)
    byContainer := table.byContainer.erase containerID }

def clear (table : ContainerKeys) : ContainerKeys := { table with byKey := .empty, byContainer := .empty }

def keysOf (table : ContainerKeys) (containerIDs : List String) : List Nat :=
  compact (sort (containerIDs.flatMap fun containerID => (table.byContainer.get containerID).sort (· ≤ ·)))

inductive Operation where
  | insert (key : Nat) (containerID : String)
  | delete (key : Nat)
  | deleteContainer (containerID : String)
  | clear
deriving DecidableEq

def apply (table : ContainerKeys) : Operation → ContainerKeys
  | .insert key containerID => (table.insert key containerID).2
  | .delete key => table.delete key
  | .deleteContainer containerID => table.deleteContainer containerID
  | .clear => table.clear

/-- Both directions tell the same, no set is empty, and no container has too many keys. -/
structure Agrees (maxPerContainer : Nat) (table : ContainerKeys) : Prop where
  agree : ∀ key containerID, key ∈ table.byContainer.get containerID ↔ table.byKey.lookup key = some containerID
  noEmpty : table.byContainer.NoEmpty
  bounded : ∀ containerID, (table.byContainer.get containerID).card ≤ maxPerContainer
  limit : table.maxPerContainer = maxPerContainer

variable {maxPerContainer : Nat} {table : ContainerKeys} {key : Nat} {containerID : String}

section

variable (agrees : table.Agrees maxPerContainer)
include agrees

/-- Only the container of a key has it. -/
theorem Agrees.get_delete (key : Nat) (containerID : String) :
    (table.delete key).byContainer.get containerID = (table.byContainer.get containerID).erase key := by
  have absent (lost : table.byKey.lookup key ≠ some containerID) :
      (table.byContainer.get containerID).erase key = table.byContainer.get containerID :=
    Finset.erase_eq_of_notMem fun owned => lost ((agrees.agree _ _).mp owned)
  unfold delete
  split
  · next oldID owner =>
      simp only [removeKeyFrom, SortedMap.get_put]
      split
      · next same => rw [same]
      · next other => exact (absent fun own => other (Option.some.inj (own.symm.trans owner))).symm
  · next unknown => exact (absent (by simp [unknown])).symm

theorem Agrees.delete (key : Nat) : (table.delete key).Agrees maxPerContainer := by
  refine ⟨fun key' other => ?_, ?_, fun other => ?_, ?_⟩
  · rw [agrees.get_delete, Finset.mem_erase, agrees.agree]
    unfold ContainerKeys.delete
    split
    · exact SortedMap.lookup_erase_eq_some.symm
    · next unknown => exact and_iff_right_of_imp fun known same => by simp [same, unknown] at known
  · unfold ContainerKeys.delete
    split
    · exact agrees.noEmpty.put
    · exact agrees.noEmpty
  · rw [agrees.get_delete]
    exact (Finset.card_le_card (Finset.erase_subset _ _)).trans (agrees.bounded other)
  · unfold ContainerKeys.delete
    split <;> exact agrees.limit

/-- A key that is new for a container is inserted as one that was deleted before. -/
theorem Agrees.detach (new : key ∉ table.byContainer.get containerID) :
    table.detach key containerID = { table.delete key with byKey := table.byKey } := by
  unfold ContainerKeys.detach ContainerKeys.delete
  split
  · next oldID owner =>
      have other : oldID ≠ containerID := fun same => new ((agrees.agree _ _).mpr (same ▸ owner))
      rw [if_pos other]
      rfl
  · rfl

theorem Agrees.insert (key : Nat) (containerID : String) :
    (table.insert key containerID).2.Agrees maxPerContainer := by
  unfold ContainerKeys.insert
  dsimp only
  split
  · exact agrees
  next new =>
  split
  · exact agrees
  next room =>
  have deleted := agrees.delete key
  rw [agrees.detach new]
  refine ⟨fun key' other => ?_, deleted.noEmpty.insert (Finset.insert_nonempty _ _).ne_empty, fun other => ?_,
    deleted.limit⟩
  · rw [SortedMap.get_insert, SortedMap.lookup_insert, agrees.get_delete]
    by_cases same : key' = key
    · by_cases owner : containerID = other <;> simp [same, owner, eq_comm]
    · by_cases owner : other = containerID <;> simp [same, owner, agrees.agree]
  · rw [SortedMap.get_insert]
    split
    · have below := agrees.limit ▸ not_le.mp room
      rw [Finset.card_insert_of_notMem new]
      exact below
    · exact deleted.bounded other

theorem Agrees.mem_deleteContainer (containerID : String) {owner : String} :
    (table.deleteContainer containerID).byKey.lookup key = some owner ↔
      table.byKey.lookup key = some owner ∧ owner ≠ containerID := by
  rw [deleteContainer, SortedMap.lookup_eraseAll_eq_some, agrees.agree, and_comm]
  exact and_congr_right fun isOwner => by rw [isOwner, ne_eq, Option.some_inj]

theorem Agrees.deleteContainer (containerID : String) :
    (table.deleteContainer containerID).Agrees maxPerContainer := by
  refine ⟨fun key other => ?_, agrees.noEmpty.erase, fun other => ?_, agrees.limit⟩
  · rw [agrees.mem_deleteContainer, ← agrees.agree, ContainerKeys.deleteContainer, SortedMap.get_erase]
    by_cases same : other = containerID <;> simp [same]
  · rw [ContainerKeys.deleteContainer, SortedMap.get_erase]
    split
    · exact Nat.zero_le _
    · exact agrees.bounded other

end

theorem agrees_new (maxPerContainer : Nat) : (new maxPerContainer).Agrees maxPerContainer :=
  ⟨fun _ _ => ⟨nofun, nofun⟩, fun _ => nofun, fun _ => Nat.zero_le _, rfl⟩

theorem Agrees.apply (agrees : table.Agrees maxPerContainer) (operation : Operation) :
    (table.apply operation).Agrees maxPerContainer := by
  cases operation with
  | insert key containerID => exact agrees.insert key containerID
  | delete key => exact agrees.delete key
  | deleteContainer containerID => exact agrees.deleteContainer containerID
  | clear =>
    have cleared : table.clear = new maxPerContainer := by rw [clear, agrees.limit, new]
    rw [ContainerKeys.apply, cleared]
    exact agrees_new maxPerContainer

theorem agrees_foldl (maxPerContainer : Nat) (operations : List Operation) :
    (operations.foldl apply (new maxPerContainer)).Agrees maxPerContainer :=
  List.foldlRecOn operations apply (agrees_new maxPerContainer) fun _ agrees operation _ => agrees.apply operation

/-- After any operations both directions agree, and a key that cannot be inserted changes nothing. -/
theorem containerKeys_agree (maxPerContainer : Nat) (operations : List Operation) :
    (operations.foldl apply (new maxPerContainer)).Agrees maxPerContainer ∧
      ∀ key containerID, ((operations.foldl apply (new maxPerContainer)).insert key containerID).1 = false →
        ((operations.foldl apply (new maxPerContainer)).insert key containerID).2 =
          operations.foldl apply (new maxPerContainer) := by
  refine ⟨agrees_foldl maxPerContainer operations, fun key containerID refused => ?_⟩
  unfold insert at refused ⊢
  dsimp only at refused ⊢
  split at refused
  · cases refused
  next new =>
  split at refused
  · next full => rw [if_neg new, if_pos full]
  · cases refused

end ContainerKeys

/-- The profiles that are recorded for containers and the containers of profiles, in the order of insertion. -/
structure ContainerProfiles where
  byContainer : SortedMap String (List String)
  byProfile : SortedMap String (List String)

namespace ContainerProfiles

def new : ContainerProfiles := ⟨.empty, .empty⟩

def without (list : List String) (item : String) : List String := list.filter (· ≠ item)

/-- Append the item to the list under the name, unless it is there. -/
def addTo (lists : SortedMap String (List String)) (name item : String) : SortedMap String (List String) :=
  if item ∈ lists.get name then lists else lists.insert name (lists.get name ++ [item])

def insert (table : ContainerProfiles) (containerID profile : String) : ContainerProfiles :=
  ⟨addTo table.byContainer containerID profile, addTo table.byProfile profile containerID⟩

def containers (table : ContainerProfiles) (profile : String) : List String := table.byProfile.get profile

/-- Take the item out of the lists under the names; the names whose lists are empty then are returned. -/
def removeFrom (lists : SortedMap String (List String)) (item : String) :
    List String → SortedMap String (List String) × List String
  | [] => (lists, [])
  | name :: names =>
    let left := without (lists.get name) item
    let rest := removeFrom (lists.put name left) item names
    (rest.1, if left = ∅ then name :: rest.2 else rest.2)

def delete (table : ContainerProfiles) (containerID : String) : ContainerProfiles :=
  { byContainer := table.byContainer.erase containerID
    byProfile := (removeFrom table.byProfile containerID (table.byContainer.get containerID)).1 }

def deleteProfile (table : ContainerProfiles) (profile : String) : List String × ContainerProfiles :=
  let (byContainer, unused) := removeFrom table.byContainer profile (table.byProfile.get profile)
  (unused, ⟨byContainer, table.byProfile.erase profile⟩)

inductive Operation where
  | insert (containerID profile : String)
  | delete (containerID : String)
  | deleteProfile (profile : String)
  | clear
deriving DecidableEq

def apply (table : ContainerProfiles) : Operation → ContainerProfiles
  | .insert containerID profile => table.insert containerID profile
  | .delete containerID => table.delete containerID
  | .deleteProfile profile => (table.deleteProfile profile).2
  | .clear => new

/-- The lists have no duplicates, and no list is empty. -/
structure Listed (lists : SortedMap String (List String)) : Prop where
  nodup : ∀ name, (lists.get name).Nodup
  noEmpty : lists.NoEmpty

/-- Both directions tell the same. -/
structure Agrees (table : ContainerProfiles) : Prop where
  agree : ∀ containerID profile, profile ∈ table.byContainer.get containerID ↔
    containerID ∈ table.byProfile.get profile
  byContainer : Listed table.byContainer
  byProfile : Listed table.byProfile

variable {lists : SortedMap String (List String)} {name item : String} {names : List String}

theorem mem_without {list : List String} {other : String} :
    other ∈ without list item ↔ other ∈ list ∧ other ≠ item := by
  rw [without, mem_filter, decide_eq_true_eq]

theorem mem_addTo {other element : String} :
    element ∈ (addTo lists name item).get other ↔ element ∈ lists.get other ∨ other = name ∧ element = item := by
  unfold addTo
  split
  · next known => exact (or_iff_left_of_imp fun ⟨sameName, same⟩ => sameName ▸ same ▸ known).symm
  · rw [SortedMap.get_insert]
    by_cases same : other = name <;> simp [same]

theorem Listed.addTo (listed : Listed lists) (name item : String) : Listed (addTo lists name item) := by
  unfold ContainerProfiles.addTo
  split
  · exact listed
  · next new =>
      refine ⟨fun other => ?_, listed.noEmpty.insert (append_ne_nil_of_right_ne_nil _ (cons_ne_nil _ _))⟩
      rw [SortedMap.get_insert]
      split
      · exact concat_eq_append ▸ (listed.nodup name).concat new
      · exact listed.nodup other

theorem removeFrom_spec (distinct : names.Nodup) :
    (∀ name, (removeFrom lists item names).1.get name =
        if name ∈ names then without (lists.get name) item else lists.get name) ∧
      (removeFrom lists item names).2 = names.filter fun name => without (lists.get name) item = ∅ := by
  induction names generalizing lists with
  | nil => exact ⟨fun _ => rfl, rfl⟩
  | cons first names ih =>
    obtain ⟨new, distinct⟩ := nodup_cons.mp distinct
    obtain ⟨gets, unused⟩ := @ih (lists.put first (without (lists.get first) item)) distinct
    refine ⟨fun name => ?_, ?_⟩
    · rw [removeFrom, gets, SortedMap.get_put]
      by_cases same : name = first
      · simp [same, new]
      · simp [same]
    · have others : names.filter (fun name =>
          without ((lists.put first (without (lists.get first) item)).get name) item = ∅) =
            names.filter fun name => without (lists.get name) item = ∅ := by
        refine filter_congr fun name isName => ?_
        rw [SortedMap.get_put, if_neg (ne_of_mem_of_not_mem isName new)]
      simp only [removeFrom, unused, others, filter_cons, decide_eq_true_eq]

theorem Listed.removeFrom (listed : Listed lists) (distinct : names.Nodup) :
    Listed (removeFrom lists item names).1 := by
  constructor
  · intro name
    rw [(removeFrom_spec distinct).1]
    split
    · exact (listed.nodup name).filter _
    · exact listed.nodup name
  · have noEmpty := listed.noEmpty
    clear listed distinct
    induction names generalizing lists with
    | nil => exact noEmpty
    | cons first names ih => exact ih noEmpty.put

variable {table : ContainerProfiles}

def swap (table : ContainerProfiles) : ContainerProfiles := ⟨table.byProfile, table.byContainer⟩

section

variable (agrees : table.Agrees)
include agrees

theorem Agrees.swap : table.swap.Agrees :=
  ⟨fun _ _ => (agrees.agree _ _).symm, agrees.byProfile, agrees.byContainer⟩

theorem Agrees.insert (containerID profile : String) : (table.insert containerID profile).Agrees where
  agree other element := by
    rw [ContainerProfiles.insert, mem_addTo, mem_addTo, agrees.agree, and_comm]
  byContainer := agrees.byContainer.addTo _ _
  byProfile := agrees.byProfile.addTo _ _

theorem Agrees.mem_delete {containerID other profile : String} :
    other ∈ (table.delete containerID).byProfile.get profile ↔
      other ∈ table.byProfile.get profile ∧ other ≠ containerID := by
  rw [delete, (removeFrom_spec (agrees.byContainer.nodup containerID)).1]
  split
  · exact mem_without
  · next absent =>
      refine (and_iff_left_of_imp fun listed same => absent ?_).symm
      exact (agrees.agree _ _).mpr (same ▸ listed)

theorem Agrees.delete (containerID : String) : (table.delete containerID).Agrees where
  agree other profile := by
    rw [agrees.mem_delete, ← agrees.agree, ContainerProfiles.delete, SortedMap.get_erase]
    by_cases same : other = containerID <;> simp [same]
  byContainer := by
    refine ⟨fun other => ?_, agrees.byContainer.noEmpty.erase⟩
    rw [ContainerProfiles.delete, SortedMap.get_erase]
    split
    · exact nodup_nil
    · exact agrees.byContainer.nodup other
  byProfile := agrees.byProfile.removeFrom (agrees.byContainer.nodup containerID)

/-- A profile is deleted as a container is in the table in the other direction. -/
theorem Agrees.deleteProfile (profile : String) : (table.deleteProfile profile).2.Agrees :=
  (agrees.swap.delete profile).swap

end

theorem agrees_new : new.Agrees :=
  ⟨fun _ _ => ⟨nofun, nofun⟩, ⟨fun _ => nodup_nil, fun _ => nofun⟩, ⟨fun _ => nodup_nil, fun _ => nofun⟩⟩

theorem Agrees.apply (agrees : table.Agrees) (operation : Operation) : (table.apply operation).Agrees := by
  cases operation with
  | insert containerID profile => exact agrees.insert containerID profile
  | delete containerID => exact agrees.delete containerID
  | deleteProfile profile => exact agrees.deleteProfile profile
  | clear => exact agrees_new

theorem agrees_foldl (operations : List Operation) : (operations.foldl apply new).Agrees :=
  List.foldlRecOn operations apply agrees_new fun _ agrees operation _ => agrees.apply operation

/-- The containers that are returned are those whose only profile is deleted. -/
theorem Agrees.mem_unused (agrees : table.Agrees) {profile containerID : String} :
    containerID ∈ (table.deleteProfile profile).1 ↔
      containerID ∈ table.containers profile ∧ ∀ other, containerID ∈ table.containers other → other = profile := by
  have spec := @removeFrom_spec table.byContainer profile _ (agrees.byProfile.nodup profile)
  simp only [ContainerProfiles.deleteProfile, spec.2, mem_filter, decide_eq_true_eq]
  refine and_congr_right fun _ => ?_
  rw [empty_eq, eq_nil_iff_forall_not_mem]
  simp only [mem_without, agrees.agree, containers, not_and, not_not]

/-- They are those that are left without any profile. -/
theorem Agrees.mem_unused_iff (agrees : table.Agrees) {profile containerID : String} :
    containerID ∈ (table.deleteProfile profile).1 ↔ table.byContainer.get containerID ≠ [] ∧
      (table.deleteProfile profile).2.byContainer.get containerID = [] := by
  have left (other : String) : other ∈ (table.deleteProfile profile).2.byContainer.get containerID ↔
      other ∈ table.byContainer.get containerID ∧ other ≠ profile := agrees.swap.mem_delete
  rw [agrees.mem_unused, eq_nil_iff_forall_not_mem]
  simp only [left, containers, ← agrees.agree, not_and, not_not]
  refine and_congr_left fun only => ⟨ne_nil_of_mem, fun some => ?_⟩
  obtain ⟨other, listed⟩ := exists_mem_of_ne_nil _ some
  exact only other listed ▸ listed

end ContainerProfiles

/-- The tables of the recorder and the profiles that were collected. -/
structure Tables where
  containerKeys : ContainerKeys
  containerIDToProfileMap : ContainerProfiles
  collectedProfiles : Finset String

namespace Tables

/-- Drop the data of a collected profile; the keys whose data is cleared are returned. -/
def resetProfile (tables : Tables) (profile : String) : List Nat × Tables :=
  let containerIDs := tables.containerIDToProfileMap.containers profile
  if containerIDs = [] then ([], tables)
  else
    let (unused, containerIDToProfileMap) := tables.containerIDToProfileMap.deleteProfile profile
    (tables.containerKeys.keysOf containerIDs,
      { containerKeys := unused.foldl ContainerKeys.deleteContainer tables.containerKeys
        containerIDToProfileMap
        collectedProfiles := insert profile tables.collectedProfiles })

/-- The tables after operations on each of them. -/
def after (maxPerContainer : Nat) (keyOperations : List ContainerKeys.Operation)
    (operations : List ContainerProfiles.Operation) (collectedProfiles : Finset String) : Tables :=
  ⟨keyOperations.foldl ContainerKeys.apply (.new maxPerContainer), operations.foldl ContainerProfiles.apply .new,
    collectedProfiles⟩

theorem foldl_deleteContainer {maxPerContainer : Nat} (containerIDs : List String) {keys : ContainerKeys}
    (agrees : keys.Agrees maxPerContainer) :
    (containerIDs.foldl ContainerKeys.deleteContainer keys).Agrees maxPerContainer ∧
      ∀ key containerID, (containerIDs.foldl ContainerKeys.deleteContainer keys).byKey.lookup key =
      some containerID ↔
        keys.byKey.lookup key = some containerID ∧ containerID ∉ containerIDs := by
  induction containerIDs generalizing keys with
  | nil => exact ⟨agrees, fun _ _ => by simp⟩
  | cons first containerIDs ih =>
    obtain ⟨agreesAfter, lookups⟩ := ih (agrees.deleteContainer first)
    refine ⟨agreesAfter, fun key containerID => ?_⟩
    rw [foldl_cons, lookups, agrees.mem_deleteContainer, mem_cons, not_or, and_assoc]

theorem mem_keysOf {maxPerContainer : Nat} {keys : ContainerKeys} (agrees : keys.Agrees maxPerContainer)
    {containerIDs : List String} {key : Nat} :
    key ∈ keys.keysOf containerIDs ↔ ∃ containerID ∈ containerIDs, keys.byKey.lookup key = some containerID := by
  rw [ContainerKeys.keysOf, mem_compact_sort, mem_flatMap]
  simp only [Finset.mem_sort, agrees.agree]

/-- After any operations on the tables both directions of the profiles agree, and a profile that is deleted leaves
exactly the returned containers without profiles. Its reset clears the keys of all its containers, and the keys that
are forgotten are those of the containers which no other profile records. -/
theorem resetProfile_exact (maxPerContainer : Nat) (keyOperations : List ContainerKeys.Operation)
    (operations : List ContainerProfiles.Operation) (collectedProfiles : Finset String) (profile : String) :
    let tables := after maxPerContainer keyOperations operations collectedProfiles
    let profiles := tables.containerIDToProfileMap
    let owner := tables.containerKeys.byKey.lookup
    let deleted := profiles.deleteProfile profile
    let reset := tables.resetProfile profile
    profiles.Agrees ∧ deleted.1.Nodup ∧
      (∀ containerID, containerID ∈ deleted.1 ↔
        profiles.byContainer.get containerID ≠ [] ∧ deleted.2.byContainer.get containerID = []) ∧
      (∀ key, key ∈ reset.1 ↔ ∃ containerID ∈ profiles.containers profile, owner key = some containerID) ∧
      reset.2.containerKeys.Agrees maxPerContainer ∧
      ∀ key containerID, reset.2.containerKeys.byKey.lookup key = some containerID ↔
        owner key = some containerID ∧ ¬(containerID ∈ profiles.containers profile ∧
          ∀ other, containerID ∈ profiles.containers other → other = profile) := by
  intro tables profiles owner deleted reset
  have keysAgree : tables.containerKeys.Agrees maxPerContainer :=
    ContainerKeys.agrees_foldl maxPerContainer keyOperations
  have agrees : profiles.Agrees := ContainerProfiles.agrees_foldl operations
  refine ⟨agrees, ?_, fun _ => agrees.mem_unused_iff, ?_⟩
  · rw [show deleted.1 = _ from (ContainerProfiles.removeFrom_spec (agrees.byProfile.nodup profile)).2]
    exact (agrees.byProfile.nodup profile).filter _
  by_cases recorded : profiles.containers profile = []
  · rw [show reset = ([], tables) from if_pos recorded]
    refine ⟨fun key => by simp [recorded], keysAgree, fun key containerID => ?_⟩
    exact (and_iff_left (by simp [recorded])).symm
  · rw [show reset = (tables.containerKeys.keysOf (profiles.containers profile), _) from if_neg recorded]
    obtain ⟨agreesAfter, lookups⟩ := foldl_deleteContainer deleted.1 keysAgree
    refine ⟨fun key => mem_keysOf keysAgree, agreesAfter, fun key containerID => ?_⟩
    exact (lookups key containerID).trans (and_congr_right fun _ => not_congr agrees.mem_unused)

end Tables

end SecurityProfiles.Bpf
