import Mathlib.Data.List.Sigma

/-- A bounded map, with the entry that was used last in front. -/
structure Lru (K V : Type) [DecidableEq K] (capacity : Nat) where
  entries : List (Sigma fun _ : K => V)
  nodup : entries.NodupKeys
  bounded : entries.length ≤ capacity

namespace Lru

open List

variable {K V : Type} [DecidableEq K] {capacity : Nat}

def empty : Lru K V capacity := ⟨[], nodupKeys_nil, Nat.zero_le _⟩

def lookup (cache : Lru K V capacity) (key : K) : Option V := cache.entries.dlookup key

def keys (cache : Lru K V capacity) : List K := cache.entries.keys

def set (cache : Lru K V capacity) (key : K) (value : V) : Lru K V capacity where
  entries := (List.kinsert key value cache.entries).take capacity
  nodup := (kinsert_nodupKeys key value cache.nodup).sublist (take_sublist _ _)
  bounded := length_take_le _ _

def delete (cache : Lru K V capacity) (key : K) : Lru K V capacity where
  entries := cache.entries.kerase key
  nodup := cache.nodup.kerase key
  bounded := Nat.le_trans (kerase_sublist key cache.entries).length_le cache.bounded

/-- An entry for the key takes the place of none but its own. -/
def HasRoom (cache : Lru K V capacity) (key : K) : Prop := key ∈ cache.keys ∨ cache.entries.length < capacity

variable (cache : Lru K V capacity) {key other : K} (value : V)

theorem mem_keys : key ∈ cache.keys ↔ (cache.lookup key).isSome = true := dlookup_isSome.symm

section

variable {cache : Lru K V capacity}

/-- While there is room, setting a value is that of a map. Nothing is evicted. -/
theorem entries_set_of_room (room : cache.HasRoom key) :
    (cache.set key value).entries = List.kinsert key value cache.entries := by
  refine take_of_length_le ?_
  have lengths : (cache.entries.kerase key).length = (cache.entries.keys.erase key).length := by
    rw [← keys_kerase]
    exact (length_map _).symm
  have keys : cache.entries.keys.length = cache.entries.length := length_map _
  have bounded := cache.bounded
  rw [kinsert_def, length_cons, lengths]
  rcases room with present | space
  · have some := length_pos_of_mem present
    have shorter : (cache.entries.keys.erase key).length = _ := length_erase_of_mem present
    change 0 < cache.entries.keys.length at some
    change _ = cache.entries.keys.length - 1 at shorter
    omega
  · have shorter : (cache.entries.keys.erase key).length ≤ cache.entries.keys.length := length_erase_le
    omega

theorem lookup_set_self (some : 0 < capacity) : (cache.set key value).lookup key = value := by
  cases capacity with
  | zero => cases some
  | succ rest => exact dlookup_cons_eq _ _ _

theorem lookup_set_ne (room : cache.HasRoom key) (different : other ≠ key) :
    (cache.set key value).lookup other = cache.lookup other := by
  rw [lookup, entries_set_of_room value room]
  exact dlookup_kinsert_ne different

end

theorem lookup_delete_self (key : K) : (cache.delete key).lookup key = none := dlookup_kerase key cache.nodup

theorem lookup_delete_ne (different : other ≠ key) : (cache.delete key).lookup other = cache.lookup other :=
  dlookup_kerase_ne different

end Lru
