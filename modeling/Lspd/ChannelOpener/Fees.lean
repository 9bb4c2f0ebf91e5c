import Lspd.ChannelOpener.RegisterPayment

/-! The fee check of a registration, which computes with `int64`, against the
fee as it is meant. -/

namespace Lspd.ChannelOpener

open Lspd.Common Lspd.Machine

/-- The proportional part of a fee in whole satoshis, without any bound on the numbers. -/
def proportionalFee (incoming : Int) (proportional : UInt32) : Int :=
  1000 * (incoming * proportional.toNat / 1000000000)

/-- What fee parameters charge for an incoming amount. -/
def charge (incoming : Int) (minMsat : UInt64) (proportional : UInt32) : Int :=
  max minMsat.toNat (proportionalFee incoming proportional)

/-- The difference of the amounts pays the charge. -/
def Enough (params : RpcOpeningFeeParams) (incoming outgoing : Int64) : Prop :=
  charge incoming.toInt params.minMsat params.proportional ≤ incoming.toInt - outgoing.toInt

instance (params : RpcOpeningFeeParams) (incoming outgoing : Int64) :
    Decidable (Enough params incoming outgoing) :=
  inferInstanceAs (Decidable (_ ≤ _))

/-- No wrap-around changes the decision for any outgoing amount: the minimum fits
an `int64`, and the product does too or does not count; or what is left of the
product asks for more than there is. -/
def Harmless (params : RpcOpeningFeeParams) (incoming : Int64) : Prop :=
  params.minMsat.toNat < 2 ^ 63 ∧
      (incoming.toInt * params.proportional.toNat < 2 ^ 63 ∨
        proportionalFee incoming.toInt params.proportional ≤ params.minMsat.toNat ∨
        incoming.toInt < params.minMsat.toNat) ∨
    incoming.toInt <
      1000 * ((incoming.toInt * params.proportional.toNat).bmod (2 ^ 64) / 1000000000)

/-- The proportional part as the code computes it. -/
def computedFee (params : RpcOpeningFeeParams) (incoming : Int64) : Int64 :=
  incoming * params.proportional.toUInt64.toInt64 / 1000000 / 1000 * 1000

section wrapped

variable {params : RpcOpeningFeeParams} {incoming outgoing : Int64}

theorem toInt_proportional (proportional : UInt32) :
    proportional.toUInt64.toInt64.toInt = proportional.toNat := by
  have bound := proportional.toNat_lt
  rw [toInt_toInt64_of_lt (by simp; omega)]
  simp

/-- Rounding to whole satoshis; what is left of a product that turned negative is no fee. -/
theorem rounded_cases (product : Int64) :
    0 ≤ product.toInt ∧ (product / 1000000 / 1000 * 1000).toInt =
        1000 * (product.toInt / 1000000000) ∨
      product.toInt < 0 ∧ (product / 1000000 / 1000 * 1000).toInt ≤ 0 := by
  have bounds := toInt_bounds product
  have thousand : Int64.toInt 1000 = 1000 := rfl
  have scaled (quotient : Int) (low : -10000000000 < quotient) (high : quotient < 10000000000)
      (value : (product / 1000000 / 1000).toInt = quotient) :
      (product / 1000000 / 1000 * 1000).toInt = quotient * 1000 := by
    rw [toInt_mul_of_bounds, value, thousand]
    · rw [value, thousand]
      omega
    · rw [value, thousand]
      omega
  by_cases sign : 0 ≤ product.toInt
  · left
    have first : (product / 1000000).toInt = product.toInt / 1000000 :=
      toInt_div_of_nonneg sign (by decide)
    refine ⟨sign, ?_⟩
    rw [scaled (product.toInt / 1000000 / 1000) (by omega) (by omega)]
    · omega
    · rw [toInt_div_of_nonneg (by omega) (by decide), first, thousand]
  · right
    have first : (product / 1000000).toInt = -(-product.toInt / 1000000) :=
      toInt_div_of_nonpos (by omega) (by decide)
    refine ⟨by omega, ?_⟩
    rw [scaled (-(-product.toInt / 1000000 / 1000)) (by omega) (by omega)]
    · omega
    · rw [toInt_div_of_nonpos (by omega) (by decide), first, thousand, Int.neg_neg]

/-- The check in integers: the difference pays the wrapped minimum and the rounded product. -/
theorem checkPayment_ok_iff (nonneg : 0 ≤ incoming.toInt) (proper : 0 ≤ outgoing.toInt) :
    checkPayment params incoming outgoing = .ok () ↔
      params.minMsat.toInt64.toInt ≤ incoming.toInt - outgoing.toInt ∧
        (computedFee params incoming).toInt ≤ incoming.toInt - outgoing.toInt := by
  have difference : (incoming - outgoing).toInt = incoming.toInt - outgoing.toInt := by
    have first := toInt_bounds incoming
    have second := toInt_bounds outgoing
    rw [Int64.toInt_sub, Int.bmod_def]
    split <;> omega
  have accepts (fees : Int64) :
      (if incoming - outgoing < fees then Except.error "not enough fees" else .ok ()) = .ok () ↔
        fees.toInt ≤ incoming.toInt - outgoing.toInt := by
    split
    · rename_i less
      rw [Int64.lt_iff_toInt_lt, difference] at less
      exact iff_of_false (by simp) (Int.not_le.mpr less)
    · rename_i covered
      rw [Int64.lt_iff_toInt_lt, difference] at covered
      exact iff_of_true rfl (Int.not_lt.mp covered)
  change (if incoming - outgoing < (if computedFee params incoming < params.minMsat.toInt64 then
    params.minMsat.toInt64 else computedFee params incoming) then _ else _) = _ ↔ _
  rw [accepts]
  split
  · rename_i less
    rw [Int64.lt_iff_toInt_lt] at less
    omega
  · rename_i covered
    rw [Int64.lt_iff_toInt_lt] at covered
    omega

theorem toInt_product :
    (incoming * params.proportional.toUInt64.toInt64).toInt =
      (incoming.toInt * params.proportional.toNat).bmod (2 ^ 64) := by
  rw [Int64.toInt_mul, toInt_proportional]

/-- A product that fits is rounded as it should be; one that does not loses a
multiple of `2 ^ 64` first. -/
theorem computedFee_cases (nonneg : 0 ≤ incoming.toInt) :
    incoming.toInt * params.proportional.toNat < 2 ^ 63 ∧
        (computedFee params incoming).toInt =
          proportionalFee incoming.toInt params.proportional ∨
      2 ^ 63 ≤ incoming.toInt * params.proportional.toNat ∧
        (computedFee params incoming).toInt <
          proportionalFee incoming.toInt params.proportional := by
  have product : 0 ≤ incoming.toInt * params.proportional.toNat :=
    Int.mul_nonneg nonneg (Int.natCast_nonneg _)
  have residue := @toInt_product params incoming
  have rounded := rounded_cases (incoming * params.proportional.toUInt64.toInt64)
  rw [residue] at rounded
  unfold computedFee proportionalFee
  generalize incoming.toInt * params.proportional.toNat = value at *
  by_cases fits : value < 2 ^ 63
  · left
    rw [Int.bmod_eq_of_le (by omega) (by omega)] at rounded
    exact ⟨fits, by omega⟩
  · right
    have less : value.bmod (2 ^ 64) ≤ value - 2 ^ 64 := by
      rw [Int.bmod_def]
      split <;> omega
    exact ⟨by omega, by omega⟩

/-- A residue that asks for more than some amount is what the code asks for. -/
theorem computedFee_of_residue {amount : Int} (large : 0 ≤ amount) :
    amount < (computedFee params incoming).toInt ↔
      amount < 1000 * ((incoming.toInt * params.proportional.toNat).bmod (2 ^ 64) / 1000000000) := by
  have rounded := rounded_cases (incoming * params.proportional.toUInt64.toInt64)
  rw [toInt_product] at rounded
  unfold computedFee
  omega

theorem toInt_minMsat (minMsat : UInt64) :
    minMsat.toNat < 2 ^ 63 ∧ minMsat.toInt64.toInt = minMsat.toNat ∨
      2 ^ 63 ≤ minMsat.toNat ∧ minMsat.toInt64.toInt < 0 := by
  have bound := minMsat.toNat_lt
  rw [toInt_toInt64, Int.bmod_def]
  split <;> omega

/-- The check is right for every outgoing amount exactly when no wrap-around does harm. -/
theorem checkPayment_exact_iff (params : RpcOpeningFeeParams) (incoming : Int64)
    (nonneg : 0 ≤ incoming.toInt) :
    (∀ outgoing : Int64, 0 ≤ outgoing.toInt →
      (checkPayment params incoming outgoing = .ok () ↔ Enough params incoming outgoing)) ↔
      Harmless params incoming := by
  have range := toInt_bounds incoming
  have fee := @computedFee_cases params incoming nonneg
  have residue := @computedFee_of_residue params incoming _ nonneg
  have minimum := toInt_minMsat params.minMsat
  constructor
  · intro exact
    by_contra harm
    -- the least difference the code accepts
    obtain ⟨least, covers⟩ : ∃ least, least = max 0 (max params.minMsat.toInt64.toInt
      (computedFee params incoming).toInt) := ⟨_, rfl⟩
    have room : 0 ≤ least ∧ least ≤ incoming.toInt := by
      unfold Harmless at harm
      omega
    have value : (Int64.ofInt (incoming.toInt - least)).toInt = incoming.toInt - least :=
      Int64.toInt_ofInt_of_le (by omega) (by omega)
    have agrees := exact (.ofInt (incoming.toInt - least)) (by omega)
    rw [checkPayment_ok_iff nonneg (by omega), Enough, charge, Int.max_le, value] at agrees
    unfold Harmless at harm
    omega
  · intro harmless outgoing proper
    rw [checkPayment_ok_iff nonneg proper, Enough, charge, Int.max_le]
    unfold Harmless at harmless
    omega

end wrapped

section sample

/-- The fees of the sample registration: 0.4 percent, at least 2000 sat. -/
def sampleFees : RpcOpeningFeeParams :=
  { minMsat := 2000000
    proportional := 4000
    validUntil := "2023-01-01T00:00:00.000Z"
    maxIdleTime := 4320
    maxClientToSelfDelay := 432
    promise := "" }

theorem checkPayment_exact_sample :
    checkPayment sampleFees 100000000 98000000 = .ok () ∧
      (checkPayment sampleFees 100000000 98000000 = .ok () ↔
        Enough sampleFees 100000000 98000000) :=
  ⟨rfl, (checkPayment_exact_iff sampleFees 100000000 (by decide)).mpr
    (.inl ⟨by decide, .inl (by decide)⟩) 98000000 (by decide)⟩

/-- From 23058 bitcoin on the product turns negative, and the minimum fee is enough. -/
theorem product_overflow_accepted :
    checkPayment sampleFees 2305843009213694 2305843007213694 = .ok () ∧
      ¬ Enough sampleFees 2305843009213694 2305843007213694 :=
  ⟨rfl, by decide⟩

end sample

end Lspd.ChannelOpener
