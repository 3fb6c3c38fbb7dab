import Mathlib.Data.List.Sigma
import Mathlib.Data.List.Sort
import Mathlib.Data.Finset.Card

structure SortedMap (K V : Type) [LinearOrder K] where
  entries : List (Sigma fun _ : K => V)
  sorted : entries.Pairwise fun first second => first.1 < second.1

namespace SortedMap

open List

variable {K V α : Type} [LinearOrder K]

instance [DecidableEq V] : DecidableEq (SortedMap K V) := fun first second =>
  decidable_of_iff (first.entries = second.entries) (by cases first; cases second; simp)

def empty : SortedMap K V := ⟨[], .nil⟩

instance : Inhabited (SortedMap K V) := ⟨empty⟩

theorem nodupKeys (map : SortedMap K V) : map.entries.NodupKeys :=
  nodupKeys_iff_pairwise.mpr (map.sorted.imp ne_of_lt)

def lookup (map : SortedMap K V) (key : K) : Option V := map.entries.dlookup key

variable {map first : SortedMap K V} {key key' : K} {value : V} {entry : Sigma fun _ : K => V}
  {entries : List (Sigma fun _ : K => V)} {W : Type} {second : SortedMap K W}

theorem mem_entries :
    ⟨key, value⟩ ∈ map.entries ↔ map.lookup key = some value :=
  (mem_dlookup_iff map.nodupKeys).symm

theorem ext_lookup {second : SortedMap K V} (same : ∀ key, first.lookup key = second.lookup key) :
    first = second := by
  have perm : first.entries.Perm second.entries :=
    lookup_ext first.nodupKeys second.nodupKeys fun key value => by
      exact iff_of_eq (congrArg (value ∈ ·) (same key))
  have entries := perm.eq_of_pairwise (fun _ _ _ _ before after => absurd before (not_lt.mpr after.le))
    first.sorted second.sorted
  cases first
  cases second
  simp_all

def rest {entry : Sigma fun _ : K => V} {entries : List (Sigma fun _ : K => V)}
    (sorted : (entry :: entries).Pairwise fun first second => first.1 < second.1) : SortedMap K V :=
  ⟨entries, sorted.of_cons⟩

section

variable (sorted : (entry :: entries).Pairwise fun first second => first.1 < second.1)
include sorted

theorem lookup_cons (key : K) :
    (⟨entry :: entries, sorted⟩ : SortedMap K V).lookup key =
      if key = entry.1 then some entry.2 else (rest sorted).lookup key := by
  split
  · next here =>
      subst here
      exact dlookup_cons_eq _ _ _
  · next other => exact dlookup_cons_ne _ _ other

theorem lookup_rest_first :
    (rest sorted).lookup entry.1 = none := by
  cases found : (rest sorted).lookup entry.1 with
  | none => rfl
  | some value =>
    have later := (pairwise_cons.mp sorted).1 _ (mem_entries.mpr found)
    exact absurd later (lt_irrefl _)

end

/-- Put an entry at its place, over one with the same key. -/
def insertEntry (key : K) (value : V) : List (Sigma fun _ : K => V) → List (Sigma fun _ : K => V)
  | [] => [⟨key, value⟩]
  | entry :: rest =>
    if key < entry.1 then ⟨key, value⟩ :: entry :: rest
    else if key = entry.1 then ⟨key, value⟩ :: rest
    else entry :: insertEntry key value rest

theorem mem_insertEntry
    (member : entry ∈ insertEntry key value entries) : entry = ⟨key, value⟩ ∨ entry ∈ entries := by
  induction entries with
  | nil => exact Or.inl (mem_singleton.mp member)
  | cons head rest ih =>
    unfold insertEntry at member
    split at member
    · exact mem_cons.mp member
    split at member
    · rcases mem_cons.mp member with new | old
      · exact Or.inl new
      · exact Or.inr (mem_cons_of_mem _ old)
    · rcases mem_cons.mp member with rfl | later
      · exact Or.inr mem_cons_self
      · rcases ih later with new | old
        · exact Or.inl new
        · exact Or.inr (mem_cons_of_mem _ old)

theorem insertEntry_sorted (key : K) (value : V)
    (sorted : entries.Pairwise fun first second => first.1 < second.1) :
    (insertEntry key value entries).Pairwise fun first second => first.1 < second.1 := by
  induction entries with
  | nil => exact pairwise_singleton _ _
  | cons head rest ih =>
    obtain ⟨headFirst, restSorted⟩ := pairwise_cons.mp sorted
    unfold insertEntry
    split
    · next before =>
        refine pairwise_cons.mpr ⟨?_, sorted⟩
        intro entry member
        rcases mem_cons.mp member with rfl | later
        · exact before
        · exact before.trans (headFirst entry later)
    split
    · next same =>
        exact pairwise_cons.mpr ⟨fun entry later => by simpa only [same] using headFirst entry later, restSorted⟩
    · next notBefore different =>
        have after : head.1 < key := lt_of_le_of_ne (not_lt.mp notBefore) (Ne.symm different)
        refine pairwise_cons.mpr ⟨?_, ih restSorted⟩
        intro entry member
        rcases mem_insertEntry member with rfl | later
        · exact after
        · exact headFirst entry later

theorem dlookup_insertEntry_self (key : K) (value : V) (entries : List (Sigma fun _ : K => V)) :
    (insertEntry key value entries).dlookup key = some value := by
  induction entries with
  | nil => exact dlookup_cons_eq _ _ _
  | cons head rest ih =>
    unfold insertEntry
    split
    · exact dlookup_cons_eq _ _ _
    split
    · exact dlookup_cons_eq _ _ _
    · next different =>
        rw [dlookup_cons_ne _ _ different, ih]

theorem dlookup_insertEntry_ne (value : V) (other : key' ≠ key) (entries : List (Sigma fun _ : K => V)) :
    (insertEntry key value entries).dlookup key' = entries.dlookup key' := by
  induction entries with
  | nil => exact dlookup_cons_ne _ _ other
  | cons head rest ih =>
    unfold insertEntry
    split
    · exact dlookup_cons_ne _ _ other
    split
    · next same =>
        have other' : key' ≠ head.1 := same ▸ other
        exact (dlookup_cons_ne _ _ other).trans (dlookup_cons_ne _ _ other').symm
    · by_cases here : key' = head.1
      · obtain ⟨headKey, headValue⟩ := head
        subst here
        rw [dlookup_cons_eq, dlookup_cons_eq]
      · exact (dlookup_cons_ne _ _ here).trans (ih.trans (dlookup_cons_ne _ _ here).symm)

def insert (map : SortedMap K V) (key : K) (value : V) : SortedMap K V :=
  ⟨insertEntry key value map.entries, insertEntry_sorted key value map.sorted⟩

@[simp] theorem lookup_empty (key : K) : (empty : SortedMap K V).lookup key = none := rfl

@[simp] theorem lookup_insert_self (map : SortedMap K V) (key : K) (value : V) :
    (map.insert key value).lookup key = some value :=
  dlookup_insertEntry_self key value map.entries

theorem lookup_insert_ne (map : SortedMap K V) (value : V) (other : key' ≠ key) :
    (map.insert key value).lookup key' = map.lookup key' :=
  dlookup_insertEntry_ne value other map.entries

theorem lookup_insert (map : SortedMap K V) (key key' : K) (value : V) :
    (map.insert key value).lookup key' = if key' = key then some value else map.lookup key' := by
  split
  · next same => rw [same, lookup_insert_self]
  · next other => exact map.lookup_insert_ne value other

theorem insert_eq_self (found : map.lookup key = some value) : map.insert key value = map := by
  refine ext_lookup fun key' => ?_
  rw [lookup_insert]
  split
  · next same => rw [same, found]
  · rfl

def erase (map : SortedMap K V) (key : K) : SortedMap K V :=
  ⟨map.entries.filter fun entry => entry.1 ≠ key, map.sorted.filter _⟩

theorem lookup_erase_eq_some :
    (map.erase key).lookup key' = some value ↔ key' ≠ key ∧ map.lookup key' = some value := by
  rw [← mem_entries, ← mem_entries, erase, mem_filter, decide_eq_true_eq, and_comm]

theorem lookup_erase_self (map : SortedMap K V) (key : K) : (map.erase key).lookup key = none := by
  apply Option.eq_none_iff_forall_ne_some.mpr
  intro value found
  exact (lookup_erase_eq_some.mp found).1 rfl

theorem lookup_erase_ne (map : SortedMap K V) (other : key' ≠ key) :
    (map.erase key).lookup key' = map.lookup key' := by
  apply Option.ext
  intro value
  rw [lookup_erase_eq_some, and_iff_right other]

def keys (map : SortedMap K V) : Finset K := (map.entries.map Sigma.fst).toFinset

theorem mem_keys : key ∈ map.keys ↔ ∃ value, map.lookup key = some value := by
  simp only [keys, mem_toFinset, mem_map, Sigma.exists, exists_and_right, exists_eq_right, mem_entries]

theorem mem_keys_insert :
    key' ∈ (map.insert key value).keys ↔ key' = key ∨ key' ∈ map.keys := by
  rw [mem_keys, mem_keys, lookup_insert]
  by_cases same : key' = key <;> simp [same]

theorem map_fst_entries (same : first.keys = second.keys) :
    first.entries.map Sigma.fst = second.entries.map Sigma.fst := by
  have firstSorted : (first.entries.map Sigma.fst).Pairwise (· < ·) := pairwise_map.mpr first.sorted
  have secondSorted : (second.entries.map Sigma.fst).Pairwise (· < ·) := pairwise_map.mpr second.sorted
  have perm : (first.entries.map Sigma.fst).Perm (second.entries.map Sigma.fst) := by
    refine (perm_ext_iff_of_nodup (firstSorted.imp ne_of_lt) (secondSorted.imp ne_of_lt)).mpr fun key => ?_
    rw [← mem_toFinset, ← mem_toFinset]
    exact iff_of_eq (congrArg (key ∈ ·) same)
  exact perm.eq_of_pairwise (fun _ _ _ _ less more => absurd more less.asymm) firstSorted secondSorted

/-- Maps with related values under the same keys have related entries, in the same order. -/
theorem forall₂_entries {related : V → W → Prop}
    (same : ∀ key, Option.Rel related (first.lookup key) (second.lookup key)) :
    List.Forall₂ (fun one other => one.1 = other.1 ∧ related one.2 other.2) first.entries second.entries := by
  have keys : first.keys = second.keys := by
    ext key
    rw [mem_keys, mem_keys]
    have both := same key
    generalize first.lookup key = one at both
    generalize second.lookup key = other at both
    cases both <;> simp
  have aligned : List.Forall₂ (fun one other => one.1 = other.1) first.entries second.entries := by
    have equal := map_fst_entries keys
    rw [← List.forall₂_eq_eq_eq, List.forall₂_map_left_iff, List.forall₂_map_right_iff] at equal
    exact equal
  obtain ⟨length, aligned⟩ := List.forall₂_iff_zip.mp aligned
  refine List.forall₂_iff_zip.mpr ⟨length, ?_⟩
  rintro ⟨key, one⟩ ⟨key', other⟩ pair
  obtain ⟨inFirst, inSecond⟩ := of_mem_zip pair
  obtain rfl : key = key' := aligned pair
  have both := same key
  rw [mem_entries.mp inFirst, mem_entries.mp inSecond] at both
  cases both with
  | some values => exact ⟨rfl, values⟩

def eraseAll (map : SortedMap K V) (keys : Finset K) : SortedMap K V :=
  ⟨map.entries.filter fun entry => entry.1 ∉ keys, map.sorted.filter _⟩

theorem lookup_eraseAll_eq_some {keys : Finset K} :
    (map.eraseAll keys).lookup key = some value ↔ key ∉ keys ∧ map.lookup key = some value := by
  rw [← mem_entries, ← mem_entries, eraseAll, mem_filter, decide_eq_true_eq, and_comm]

section groups

variable {C : Type} [EmptyCollection C] [DecidableEq C] {groups : SortedMap K C} {group : C}

/-- The collection under the key, the empty one if there is none. -/
def get (groups : SortedMap K C) (key : K) : C := (groups.lookup key).getD ∅

/-- Store the collection under the key, unless it is empty. -/
def put (groups : SortedMap K C) (key : K) (group : C) : SortedMap K C :=
  if group = ∅ then groups.erase key else groups.insert key group

omit [DecidableEq C] in
theorem get_insert (groups : SortedMap K C) (key key' : K) (group : C) :
    (groups.insert key group).get key' = if key' = key then group else groups.get key' := by
  rw [get, lookup_insert, apply_ite (Option.getD · ∅)]
  rfl

omit [DecidableEq C] in
theorem get_erase (groups : SortedMap K C) (key key' : K) :
    (groups.erase key).get key' = if key' = key then ∅ else groups.get key' := by
  split
  · next same => rw [same, get, lookup_erase_self, Option.getD_none]
  · next other => rw [get, get, lookup_erase_ne _ other]

theorem get_put (groups : SortedMap K C) (key key' : K) (group : C) :
    (groups.put key group).get key' = if key' = key then group else groups.get key' := by
  unfold put
  split
  · next none => rw [get_erase, none]
  · exact get_insert _ _ _ _

/-- No empty collection is stored. -/
def NoEmpty (groups : SortedMap K C) : Prop := ∀ key, groups.lookup key ≠ some ∅

omit [DecidableEq C] in
theorem NoEmpty.insert (noEmpty : groups.NoEmpty) (some : group ≠ ∅) : (groups.insert key group).NoEmpty := by
  intro key' found
  rw [lookup_insert] at found
  split at found
  · exact some (Option.some.inj found)
  · exact noEmpty key' found

omit [DecidableEq C] in
theorem NoEmpty.erase (noEmpty : groups.NoEmpty) : (groups.erase key).NoEmpty :=
  fun key' found => noEmpty key' (lookup_erase_eq_some.mp found).2

theorem NoEmpty.put (noEmpty : groups.NoEmpty) : (groups.put key group).NoEmpty := by
  unfold SortedMap.put
  split
  · exact noEmpty.erase
  · next some => exact noEmpty.insert some

end groups

end SortedMap
