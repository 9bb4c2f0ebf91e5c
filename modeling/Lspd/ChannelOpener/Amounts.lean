import Lspd.Interceptor.Handler
import Lspd.Machine.Int64

/-! Which registered amounts make the amount computation of `Intercept` sound
for every part: defined, not negative and not above the part. -/

namespace Lspd.ChannelOpener

open Lspd.Common Lspd.Interceptor

/-- The computation is defined and forwards no more than the part. -/
def Computes (outgoing : Int64) (part : UInt64) (incoming : Int64) : Prop :=
  ∃ amt, forwardAmount outgoing part incoming = some amt ∧ 0 ≤ amt.toInt ∧ amt.toInt ≤ part.toNat

/-- The outgoing amount is between zero and the incoming one. The last pair is
the only one outside of this whose quotient never leaves zero. -/
def SoundAmounts (incoming outgoing : Int64) : Prop :=
  0 < incoming.toInt ∧ 0 ≤ outgoing.toInt ∧ outgoing.toInt ≤ incoming.toInt ∨
    incoming.toInt < 0 ∧ incoming.toInt ≤ outgoing.toInt ∧ outgoing.toInt ≤ 0 ∨
    incoming.toInt = -2 ^ 63 ∧ outgoing.toInt = 1

theorem computes_iff {outgoing incoming : Int64} {part : UInt64} (small : part.toNat < 2 ^ 63)
    (nonzero : incoming.toInt ≠ 0) :
    Computes outgoing part incoming ↔
      0 ≤ (Int64.ofInt (outgoing.toInt * part.toNat / incoming.toInt)).toInt ∧
        (Int64.ofInt (outgoing.toInt * part.toNat / incoming.toInt)).toInt ≤ part.toNat := by
  have defined : incoming ≠ 0 := fun zero => nonzero (by simp [zero])
  simp [Computes, forwardAmount, defined, Machine.toInt_toInt64_of_lt small]

theorem not_computes_zero {outgoing incoming : Int64} {part : UInt64}
    (zero : incoming.toInt = 0) : ¬ Computes outgoing part incoming := by
  rintro ⟨amt, computed, _⟩
  have undefined : incoming = 0 := Int64.toInt_inj.mp zero
  simp [forwardAmount, undefined] at computed

section quotients

variable {outgoing incoming : Int} {part : Int}

/-- Dividing by a negative amount is dividing by its size and changing the sign. -/
theorem ediv_of_neg (dividend divisor : Int) : dividend / divisor = -(dividend / -divisor) := by
  rw [Int.ediv_neg, Int.neg_neg]

theorem quotient_bounds (nonneg : 0 ≤ part) (positive : 0 < incoming) (low : 0 ≤ outgoing)
    (high : outgoing ≤ incoming) :
    0 ≤ outgoing * part / incoming ∧ outgoing * part / incoming ≤ part := by
  refine ⟨Int.ediv_nonneg (Int.mul_nonneg low nonneg) (Int.le_of_lt positive), ?_⟩
  have above : outgoing * part ≤ part * incoming := by
    rw [Int.mul_comm part]
    exact Int.mul_le_mul_of_nonneg_right high nonneg
  exact Int.ediv_le_of_le_mul positive above

theorem quotient_bounds_of_neg (nonneg : 0 ≤ part) (negative : incoming < 0)
    (low : incoming ≤ outgoing) (high : outgoing ≤ 0) :
    0 ≤ outgoing * part / incoming ∧ outgoing * part / incoming ≤ part := by
  rw [ediv_of_neg]
  have positive : 0 < -incoming := by omega
  have below : outgoing * part / -incoming ≤ 0 :=
    Int.ediv_nonpos_of_nonpos_of_neg (Int.mul_nonpos_of_nonpos_of_nonneg high nonneg) positive
  have above : -part ≤ outgoing * part / -incoming := by
    apply Int.le_ediv_of_mul_le positive
    rw [Int.neg_mul_neg, Int.mul_comm]
    exact Int.mul_le_mul_of_nonneg_right low nonneg
  omega

/-- Some part is just large enough for a quotient that is not zero. -/
theorem exists_part (positive : 0 < outgoing) (divisor : 0 < incoming)
    (room : incoming + outgoing - 1 < 2 ^ 63 * outgoing) :
    ∃ part : Nat, incoming ≤ outgoing * part ∧ outgoing * part < incoming + outgoing ∧
      part < 2 ^ 63 := by
  have nonneg : 0 ≤ (incoming + outgoing - 1) / outgoing :=
    Int.ediv_nonneg (by omega) (by omega)
  have value : (((incoming + outgoing - 1) / outgoing).toNat : Int) =
      (incoming + outgoing - 1) / outgoing := by omega
  have division := Int.mul_ediv_add_emod (incoming + outgoing - 1) outgoing
  have remainder := Int.emod_nonneg (incoming + outgoing - 1) (by omega : outgoing ≠ 0)
  have below := Int.emod_lt_of_pos (incoming + outgoing - 1) positive
  have bound : (incoming + outgoing - 1) / outgoing < 2 ^ 63 := Int.ediv_lt_of_lt_mul positive room
  refine ⟨((incoming + outgoing - 1) / outgoing).toNat, ?_, ?_, by omega⟩
  · rw [value]
    omega
  · rw [value]
    omega

end quotients

theorem computes_of_bounds {outgoing incoming : Int64} {part : UInt64}
    (small : part.toNat < 2 ^ 63) (nonzero : incoming.toInt ≠ 0)
    (bounds : 0 ≤ outgoing.toInt * part.toNat / incoming.toInt ∧
      outgoing.toInt * part.toNat / incoming.toInt ≤ part.toNat) :
    Computes outgoing part incoming := by
  rw [computes_iff small nonzero, Int64.toInt_ofInt_of_le (by omega) (by omega)]
  exact bounds

theorem SoundAmounts.computes {incoming outgoing : Int64} (sound : SoundAmounts incoming outgoing)
    {part : UInt64} (small : part.toNat < 2 ^ 63) : Computes outgoing part incoming := by
  rcases sound with ⟨positive, low, high⟩ | ⟨negative, low, high⟩ | ⟨least, one⟩
  · exact computes_of_bounds small (by omega)
      (quotient_bounds (Int.natCast_nonneg _) positive low high)
  · exact computes_of_bounds small (by omega)
      (quotient_bounds_of_neg (Int.natCast_nonneg _) negative low high)
  · refine computes_of_bounds small (by omega) ?_
    rw [least, one, Int.one_mul, Int.ediv_neg]
    omega

section necessity

variable {incoming outgoing : Int64}
  (computes : ∀ part : UInt64, part.toNat < 2 ^ 63 → Computes outgoing part incoming)
include computes

/-- The quotient of a part whose value fits an `int64` is within the part. -/
theorem bounds_of_computes (part : Nat) (small : part < 2 ^ 63)
    (low : -2 ^ 63 ≤ outgoing.toInt * part / incoming.toInt)
    (high : outgoing.toInt * part / incoming.toInt < 2 ^ 63) :
    0 ≤ outgoing.toInt * part / incoming.toInt ∧
      outgoing.toInt * part / incoming.toInt ≤ part := by
  have value : (UInt64.ofNat part).toNat = part := UInt64.toNat_ofNat_of_lt (by rw [UInt64.size]; omega)
  have at_part := computes (UInt64.ofNat part) (by omega)
  by_cases zero : incoming.toInt = 0
  · exact absurd at_part (not_computes_zero zero)
  · rw [computes_iff (by omega) zero, value, Int64.toInt_ofInt_of_le low high] at at_part
    exact at_part

theorem sound_of_pos (positive : 0 < incoming.toInt) : SoundAmounts incoming outgoing := by
  have range := Machine.toInt_bounds outgoing
  have range' := Machine.toInt_bounds incoming
  have sign : 0 ≤ outgoing.toInt := by
    by_contra negative
    have one := bounds_of_computes computes 1 (by omega)
      (Int.le_ediv_of_mul_le positive (by omega)) (Int.ediv_lt_of_lt_mul positive (by omega))
    have below : outgoing.toInt * (1 : Nat) / incoming.toInt < 0 :=
      Int.ediv_lt_of_lt_mul positive (by omega)
    omega
  have size : outgoing.toInt ≤ incoming.toInt := by
    have value : (incoming.toInt.toNat : Int) = incoming.toInt := by omega
    have whole : outgoing.toInt * incoming.toInt.toNat / incoming.toInt = outgoing.toInt := by
      rw [value, Int.mul_ediv_cancel _ (by omega)]
    have all := bounds_of_computes computes incoming.toInt.toNat (by omega)
      (by omega) (by omega)
    omega
  exact .inl ⟨positive, sign, size⟩

/-- With both amounts negative, one part of 1 shows that the outgoing one is smaller in size. -/
theorem sound_of_neg_of_neg (negative : incoming.toInt < 0) (below : outgoing.toInt < 0) :
    SoundAmounts incoming outgoing := by
  have range := Machine.toInt_bounds outgoing
  have positive : 0 < -incoming.toInt := by omega
  refine .inr (.inl ⟨negative, ?_, by omega⟩)
  by_contra larger
  have quotient := ediv_of_neg (outgoing.toInt * (1 : Nat)) incoming.toInt
  have two : outgoing.toInt * (1 : Nat) / -incoming.toInt < -1 :=
    Int.ediv_lt_of_lt_mul positive (by omega)
  have least : -2 ^ 63 ≤ outgoing.toInt * (1 : Nat) / -incoming.toInt :=
    Int.le_ediv_of_mul_le positive (by omega)
  by_cases wraps : outgoing.toInt * (1 : Nat) / -incoming.toInt = -2 ^ 63
  · -- the quotient is 2 ^ 63, the one value that turns negative
    have at_one := computes 1 (by decide)
    rw [computes_iff (by decide) (by omega)] at at_one
    have value : outgoing.toInt * (UInt64.toNat 1) / incoming.toInt = 2 ^ 63 := by
      rw [show UInt64.toNat 1 = 1 from rfl]
      omega
    rw [value] at at_one
    revert at_one
    decide
  · have one := bounds_of_computes computes 1 (by omega) (by omega) (by omega)
    omega

/-- With a negative incoming and a positive outgoing amount, the smallest part
whose quotient is not zero is answered with -1. -/
theorem sound_of_neg_of_pos (negative : incoming.toInt < 0) (above : 0 < outgoing.toInt) :
    SoundAmounts incoming outgoing := by
  have range := Machine.toInt_bounds outgoing
  have range' := Machine.toInt_bounds incoming
  have positive : 0 < -incoming.toInt := by omega
  by_contra unsound
  have notLeast : ¬ (incoming.toInt = -2 ^ 63 ∧ outgoing.toInt = 1) :=
    fun least => unsound (.inr (.inr least))
  obtain ⟨part, covers, reached, small⟩ : ∃ part : Nat, -incoming.toInt ≤ outgoing.toInt * part ∧
      outgoing.toInt * part < -incoming.toInt + outgoing.toInt ∧ part < 2 ^ 63 :=
    exists_part above positive (by omega)
  have low : 1 ≤ outgoing.toInt * part / -incoming.toInt :=
    Int.le_ediv_of_mul_le positive (by omega)
  have high : outgoing.toInt * part / -incoming.toInt ≤ outgoing.toInt := by
    apply Int.ediv_le_of_le_mul positive
    have size : 0 ≤ (outgoing.toInt - 1) * (-incoming.toInt - 1) :=
      Int.mul_nonneg (by omega) (by omega)
    rw [Int.sub_mul, Int.mul_sub, Int.mul_sub] at size
    omega
  have quotient := ediv_of_neg (outgoing.toInt * part) incoming.toInt
  have bounds := bounds_of_computes computes part small (by omega) (by omega)
  omega

theorem sound_of_computes : SoundAmounts incoming outgoing := by
  rcases Int.lt_trichotomy incoming.toInt 0 with negative | zero | positive
  · rcases Int.lt_trichotomy outgoing.toInt 0 with below | none | above
    · exact sound_of_neg_of_neg computes negative below
    · exact .inr (.inl ⟨negative, by omega, by omega⟩)
    · exact sound_of_neg_of_pos computes negative above
  · exact absurd (computes 0 (by decide)) (not_computes_zero zero)
  · exact sound_of_pos computes positive

end necessity

theorem sound_iff_computes {incoming outgoing : Int64} :
    (∀ part : UInt64, part.toNat < 2 ^ 63 → Computes outgoing part incoming) ↔
      SoundAmounts incoming outgoing :=
  ⟨sound_of_computes, fun sound _ small => sound.computes small⟩

end Lspd.ChannelOpener
