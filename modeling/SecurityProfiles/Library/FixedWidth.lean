import Mathlib.Algebra.Group.Int.Defs
import Mathlib.Algebra.Group.Nat.Defs
import Mathlib.Tactic.Common

namespace FixedWidth

/-- Go's conversion to a signed integer of 32 bits: the bits above are cut off and the sign is read from the
highest one that is left. -/
def int32 (value : Nat) : Int := (value : Int).bmod (2 ^ 32)

def int64 (value : Nat) : Int := (value : Int).bmod (2 ^ 64)

/-- Go's conversion of a signed to an unsigned integer of 64 bits. -/
def uint64 (value : Int) : Nat := (value % 2 ^ 64).toNat

def maxInt32 : Nat := 2 ^ 31 - 1

def maxInt64 : Nat := 2 ^ 63 - 1

variable {value : Nat} {signed : Int}

/-- The check against the largest value is enough for the conversion to change nothing. -/
theorem int32_of_le (fits : value ≤ maxInt32) : int32 value = value := by
  unfold maxInt32 at fits
  exact Int.bmod_eq_of_le_mul_two (by omega) (by omega)

theorem int64_of_le (fits : value ≤ maxInt64) : int64 value = value := by
  unfold maxInt64 at fits
  exact Int.bmod_eq_of_le_mul_two (by omega) (by omega)

theorem natCast_bmod_le (count size : Nat) : (count : Int).bmod size ≤ count := by
  have below : (count : Int) % (size : Int) ≤ count := by
    rw [← Int.natCast_emod]
    exact Int.ofNat_le.mpr (Nat.mod_le count size)
  rw [Int.bmod_def]
  split
  · exact below
  · exact Int.le_trans (Int.sub_le_self _ (Int.natCast_nonneg _)) below

theorem int32_le (count : Nat) : int32 count ≤ count := natCast_bmod_le count _

theorem uint64_of_nonneg (low : 0 ≤ signed) (high : signed < 2 ^ 63) : (uint64 signed : Int) = signed := by
  unfold uint64
  omega

theorem uint64_of_le (fits : value ≤ maxInt64) : uint64 value = value := by
  unfold maxInt64 at fits
  exact Int.ofNat.inj (uint64_of_nonneg (Int.natCast_nonneg value) (by omega))

/-- A negative number becomes one that no signed integer can hold. -/
theorem uint64_of_neg (low : -2 ^ 63 ≤ signed) (negative : signed < 0) : maxInt64 < uint64 signed := by
  unfold uint64 maxInt64
  omega

end FixedWidth
