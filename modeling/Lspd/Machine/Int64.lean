import Mathlib.Algebra.Group.Int.Defs
import Mathlib.Algebra.Group.Nat.Defs
import Mathlib.Data.Int.Basic

/-! Conversions between `int64`, `uint64` and the integers, in the form the
arithmetic of the models needs. -/

namespace Lspd.Machine

theorem toInt_bounds (value : Int64) : -2 ^ 63 ≤ value.toInt ∧ value.toInt < 2 ^ 63 :=
  ⟨value.le_toInt, value.toInt_lt⟩

/-- `uint64(value)` keeps the residue. -/
theorem toNat_toUInt64 (value : Int64) : (value.toUInt64.toNat : Int) = value.toInt % 2 ^ 64 := by
  have low : value.toInt = (value.toUInt64.toNat : Int).bmod (2 ^ 64) :=
    BitVec.toInt_eq_toNat_bmod value.toBitVec
  have bound := value.toUInt64.toNat_lt
  rw [low, Int.bmod_def]
  split <;> omega

/-- Going through `int64` on the way to `uint64` changes nothing. -/
theorem toNat_toUInt64_ofInt (value : Int) :
    ((Int64.ofInt value).toUInt64.toNat : Int) = value % 2 ^ 64 := by
  rw [toNat_toUInt64, Int64.toInt_ofInt, Int64.size, Int.bmod_def]
  split <;> omega

/-- A sum that wraps around is still right as a `uint64`. -/
theorem toNat_toUInt64_add (one two : Int64) :
    ((one + two).toUInt64.toNat : Int) = (one.toInt + two.toInt) % 2 ^ 64 := by
  rw [toNat_toUInt64, Int64.toInt_add, Int.bmod_def]
  split <;> omega

theorem toInt_mul_of_bounds {one two : Int64} (low : -2 ^ 63 ≤ one.toInt * two.toInt)
    (high : one.toInt * two.toInt < 2 ^ 63) : (one * two).toInt = one.toInt * two.toInt := by
  rw [Int64.toInt_mul]
  exact Int.bmod_eq_of_le (by omega) (by omega)

/-- Division of amounts that are not negative rounds down. -/
theorem toInt_div_of_nonneg {dividend divisor : Int64} (nonneg : 0 ≤ dividend.toInt)
    (positive : 0 < divisor.toInt) :
    (dividend / divisor).toInt = dividend.toInt / divisor.toInt := by
  have bounds := toInt_bounds dividend
  have low := Int.ediv_nonneg nonneg (Int.le_of_lt positive)
  have high := Int.ediv_le_self divisor.toInt nonneg
  rw [Int64.toInt_div, Int.tdiv_eq_ediv_of_nonneg nonneg, Int.bmod_def]
  split <;> omega

/-- Division of other amounts rounds towards zero. -/
theorem toInt_div_of_nonpos {dividend divisor : Int64} (nonpos : dividend.toInt ≤ 0)
    (positive : 0 < divisor.toInt) :
    (dividend / divisor).toInt = -(-dividend.toInt / divisor.toInt) := by
  have proper : divisor ≠ -1 := by
    rintro rfl
    exact absurd positive (by decide)
  rw [Int64.toInt_div_of_ne_right _ _ proper,
    ← Int.tdiv_eq_ediv_of_nonneg (show 0 ≤ -dividend.toInt by omega), Int.neg_tdiv, Int.neg_neg]

/-- `int64(value)` takes the residue around zero. -/
theorem toInt_toInt64 (value : UInt64) : value.toInt64.toInt = (value.toNat : Int).bmod (2 ^ 64) :=
  BitVec.toInt_eq_toNat_bmod value.toBitVec

theorem toInt_toInt64_of_lt {value : UInt64} (small : value.toNat < 2 ^ 63) :
    value.toInt64.toInt = value.toNat := by
  rw [toInt_toInt64, Int.bmod_def]
  split <;> omega

/-- The conversion to `uint64` never lands on another `int64` value. -/
theorem toNat_toUInt64_ne {one two : Int64} (different : one ≠ two) :
    (one.toUInt64.toNat : Int) ≠ two.toInt := by
  intro same
  have bounds := toInt_bounds two
  have low := toInt_bounds one
  rw [toNat_toUInt64] at same
  exact different (Int64.toInt_inj.mp (by omega))

end Lspd.Machine
