import Lspd.ChannelOpener.Amounts
import Lspd.Interceptor.System
import Lspd.Machine.Shares
import Mathlib.Algebra.Order.Group.Int

/-! What `Intercept` forwards for the parts of one payment, however the payer
splits it. -/

namespace Lspd.Interceptor

open Lspd.Common Lspd.Machine Lspd.Process

/-- A finished execution that forwards a part of a payment registered with these amounts. -/
structure Forwards (i : Interceptor) (incoming outgoing : Int64) (req : InterceptRequest)
    (result : InterceptResult) : Prop where
  run : ∃ trail info, (i.intercept req).Runs trail (.done result) ∧ info? trail = some info ∧
    info.incomingAmountMsat = incoming ∧ info.outgoingAmountMsat = outgoing
  onion : result.action = .resumeWithOnion

variable {i : Interceptor} {incoming outgoing : Int64} {req : InterceptRequest}
  {result : InterceptResult} {calls : List (InterceptRequest × InterceptResult)}

theorem Forwards.amount (forwards : Forwards i incoming outgoing req result) :
    ∃ amt, forwardAmount outgoing req.outgoingAmountMsat incoming = some amt ∧
      result.amountMsat = amt.toUInt64 ∧ result.totalAmountMsat = outgoing.toUInt64 := by
  obtain ⟨⟨trail, info, runs, read, rfl, rfl⟩, onion⟩ := forwards
  obtain ⟨other, channelPoint, amt, scid, htlc, stored, resumed⟩ :=
    (settled_of_runs runs).resumed onion
  obtain rfl : other = info := Option.some.inj (resumed.vetted.read.symm.trans read)
  refine ⟨amt, resumed.amount, ?_, ?_⟩
  · rw [resumed.result_eq]
    rfl
  · rw [resumed.result_eq]
    rfl

/-- The amounts that come in with the parts. -/
def partAmounts (calls : List (InterceptRequest × InterceptResult)) : List Int :=
  calls.map fun call => call.1.outgoingAmountMsat.toNat

/-- The amounts that are passed on for them. -/
def forwardedAmounts (calls : List (InterceptRequest × InterceptResult)) : List Int :=
  calls.map fun call => call.2.amountMsat.toNat

section shares

variable (positive : 0 < incoming.toInt) (low : 0 ≤ outgoing.toInt)
  (high : outgoing.toInt ≤ incoming.toInt)
include positive low high

theorem share_of_forwards (forwards : Forwards i incoming outgoing req result)
    (small : req.outgoingAmountMsat.toNat < 2 ^ 63) :
    (result.amountMsat.toNat : Int) =
      share outgoing.toInt incoming.toInt req.outgoingAmountMsat.toNat := by
  obtain ⟨amt, computed, passed, _⟩ := forwards.amount
  have defined : incoming ≠ 0 := fun zero => by simp [zero] at positive
  rw [forwardAmount, if_neg defined, toInt_toInt64_of_lt small] at computed
  obtain rfl := Option.some.inj computed
  have bounds := ChannelOpener.quotient_bounds (Int.natCast_nonneg req.outgoingAmountMsat.toNat)
    positive low high
  rw [passed, toNat_toUInt64_ofInt]
  exact Int.emod_eq_of_lt bounds.1 (by omega)

theorem forwardedAmounts_eq (small : ∀ call ∈ calls, call.1.outgoingAmountMsat.toNat < 2 ^ 63)
    (forwarded : ∀ call ∈ calls, Forwards i incoming outgoing call.1 call.2) :
    forwardedAmounts calls = (partAmounts calls).map (share outgoing.toInt incoming.toInt) := by
  rw [forwardedAmounts, partAmounts, List.map_map]
  apply List.map_congr_left
  intro call member
  exact share_of_forwards positive low high (forwarded call member) (small call member)

end shares

/-- The capacity is above the registered amount, also where the sum does not fit an `int64`. -/
theorem channelCapacity_covers (positive : 0 < incoming.toInt)
    (additional : 1 ≤ i.config.additionalChannelCapacity.toInt) :
    incoming.toInt < 1000 * (i.channelCapacity incoming).toUInt64.toNat := by
  have bounds := toInt_bounds incoming
  have more := toInt_bounds i.config.additionalChannelCapacity
  have quotient : (incoming / 1000).toInt = incoming.toInt / 1000 :=
    toInt_div_of_nonneg (Int.le_of_lt positive) (by decide)
  have sum := toNat_toUInt64_add (incoming / 1000) i.config.additionalChannelCapacity
  unfold channelCapacity
  dsimp only
  split
  · have bumped := toNat_toUInt64_add (incoming / 1000 + i.config.additionalChannelCapacity) 1
    rw [Int64.toInt_add, Int.bmod_def, show Int64.toInt 1 = 1 from rfl] at bumped
    split at bumped <;> omega
  · omega

/-- Whatever channel is asked for when the payment is read is larger than its amount. -/
theorem request_covers {trail : Trail} {later : Code InterceptResult} {info : Postgres.PaymentInfo}
    {request : OpenChannelRequest} {reply : Reply (.openChannel request)}
    (positive : 0 < info.incomingAmountMsat.toInt)
    (additional : 1 ≤ i.config.additionalChannelCapacity.toInt)
    (runs : (i.intercept req).Runs trail later) (read : info? trail = some info)
    (asked : ⟨.openChannel request, reply⟩ ∈ trail) :
    info.incomingAmountMsat.toInt < 1000 * request.capacitySat.toNat := by
  obtain ⟨earlier, more, other, params, validUntil, now, split, justified⟩ :=
    justified_of_runs runs asked
  obtain rfl : other = info := by
    rw [split, info?_append _ justified.vetted.read] at read
    exact Option.some.inj read
  obtain ⟨fee, made⟩ := justified.request
  rw [made]
  exact channelCapacity_covers positive additional

/-- Rounding favours the node: no part and no set of parts is passed on above its
share, and parts of the registered amount fit the channel that was asked for. -/
theorem parts_within_shares (positive : 0 < incoming.toInt) (low : 0 ≤ outgoing.toInt)
    (high : outgoing.toInt ≤ incoming.toInt)
    (small : ∀ call ∈ calls, call.1.outgoingAmountMsat.toNat < 2 ^ 63)
    (forwarded : ∀ call ∈ calls, Forwards i incoming outgoing call.1 call.2) :
    (∀ call ∈ calls,
      (call.2.amountMsat.toNat : Int) =
        outgoing.toInt * call.1.outgoingAmountMsat.toNat / incoming.toInt ∧
      call.2.amountMsat.toNat ≤ call.1.outgoingAmountMsat.toNat) ∧
    (forwardedAmounts calls).sum ≤ outgoing.toInt * (partAmounts calls).sum / incoming.toInt ∧
    (incoming.toInt - outgoing.toInt) * (partAmounts calls).sum ≤
      incoming.toInt * ((partAmounts calls).sum - (forwardedAmounts calls).sum) ∧
    ((partAmounts calls).sum ≤ incoming.toInt →
      (forwardedAmounts calls).sum ≤ outgoing.toInt ∧
      (1 ≤ i.config.additionalChannelCapacity.toInt →
        ∀ req trail later info request reply, (i.intercept req).Runs trail later →
          info? trail = some info → info.incomingAmountMsat = incoming →
          ⟨.openChannel request, reply⟩ ∈ trail →
            (forwardedAmounts calls).sum ≤ 1000 * request.capacitySat.toNat)) := by
  have shares := forwardedAmounts_eq positive low high small forwarded
  have rounded : (forwardedAmounts calls).sum ≤
      outgoing.toInt * (partAmounts calls).sum / incoming.toInt := by
    rw [shares]
    exact sum_shares_le positive
  have scaled : incoming.toInt * (forwardedAmounts calls).sum ≤
      outgoing.toInt * (partAmounts calls).sum := by
    have total := sum_shares outgoing.toInt incoming.toInt (partAmounts calls)
    have nonneg : 0 ≤ ((partAmounts calls).map (rest outgoing.toInt incoming.toInt)).sum :=
      sum_rests_nonneg positive
    rw [shares]
    omega
  refine ⟨?_, rounded, ?_, ?_⟩
  · intro call member
    have same := share_of_forwards positive low high (forwarded call member) (small call member)
    have bounds := ChannelOpener.quotient_bounds
      (Int.natCast_nonneg call.1.outgoingAmountMsat.toNat) positive low high
    exact ⟨same, by unfold share at same; omega⟩
  · rw [Int.sub_mul, Int.mul_sub]
    omega
  · intro within
    have most : (forwardedAmounts calls).sum ≤ outgoing.toInt := by
      have bound := Int.mul_le_mul_of_nonneg_left within low
      apply Int.le_of_mul_le_mul_left _ positive
      rw [Int.mul_comm incoming.toInt outgoing.toInt]
      omega
    refine ⟨most, ?_⟩
    rintro additional req trail later info request reply runs read rfl asked
    have covers := request_covers positive additional runs read asked
    omega

theorem part_le_sum {call : InterceptRequest × InterceptResult} (member : call ∈ calls) :
    (call.1.outgoingAmountMsat.toNat : Int) ≤ (partAmounts calls).sum := by
  apply List.single_le_sum
  · intro amount listed
    obtain ⟨other, _, rfl⟩ := List.mem_map.mp listed
    exact Int.natCast_nonneg _
  · exact List.mem_map_of_mem member

/-- The parts of the registered amount reach the announced total exactly when no
share of theirs has to be rounded. -/
theorem parts_complete_iff (low : 0 < outgoing.toInt) (high : outgoing.toInt ≤ incoming.toInt)
    (whole : (partAmounts calls).sum = incoming.toInt)
    (forwarded : ∀ call ∈ calls, Forwards i incoming outgoing call.1 call.2) :
    ((forwardedAmounts calls).sum = outgoing.toInt ∧
      ∀ call ∈ calls, (call.2.totalAmountMsat.toNat : Int) = (forwardedAmounts calls).sum) ↔
      ∀ call ∈ calls, incoming.toInt ∣ outgoing.toInt * call.1.outgoingAmountMsat.toNat := by
  have positive : 0 < incoming.toInt := by omega
  have small : ∀ call ∈ calls, call.1.outgoingAmountMsat.toNat < 2 ^ 63 := by
    intro call member
    have bounds := toInt_bounds incoming
    have part := part_le_sum member
    omega
  have shares := forwardedAmounts_eq positive (Int.le_of_lt low) high small forwarded
  have total : ∀ call ∈ calls, (call.2.totalAmountMsat.toNat : Int) = outgoing.toInt := by
    intro call member
    obtain ⟨amt, _, _, announced⟩ := (forwarded call member).amount
    have bounds := toInt_bounds outgoing
    rw [announced, toNat_toUInt64]
    omega
  have divides := @sum_shares_eq_iff outgoing.toInt incoming.toInt (partAmounts calls) positive
  rw [← shares, whole, partAmounts, List.forall_mem_map] at divides
  rw [← divides, Int.mul_comm outgoing.toInt, Int.mul_eq_mul_left_iff (by omega)]
  constructor
  · intro complete
    exact complete.1
  · intro same
    exact ⟨same, fun call member => (total call member).trans same.symm⟩

section sample

theorem sampleRun_forwards {world : World} {part : InterceptRequest} {result : InterceptResult}
    {info : Postgres.PaymentInfo}
    (finishes : (sampleRun sampleScene world part).program = .done result)
    (read : info? (sampleRun sampleScene world part).history = some info)
    (onion : result.action = .resumeWithOnion) :
    Forwards sampleInterceptor info.incomingAmountMsat info.outgoingAmountMsat part result := by
  obtain ⟨trail, same, runs⟩ := Thread.drive_runs (sampleScene.answer sampleSha256) 20
    ⟨world, [], sampleInterceptor.intercept part⟩
  rw [List.nil_append] at same
  change (sampleRun sampleScene world part).history = trail at same
  subst same
  exact ⟨⟨_, info, finishes ▸ runs, read, rfl, rfl⟩, onion⟩

/-- The world in which the channel of the sample payment is recorded. -/
def sampleFunded : World := (sampleRun sampleScene sampleWorld (samplePart 50000000 50000000)).world

/-- The first half opens the channel, the second one uses it. -/
def sampleHalves : List (InterceptRequest × InterceptResult) :=
  [(samplePart 50000000 50000000, sampleResult 49000000),
    (samplePart 50000000 50000000, sampleResult 49000000)]

theorem sampleHalves_forwarded :
    ∀ call ∈ sampleHalves, Forwards sampleInterceptor 100000000 98000000 call.1 call.2 := by
  have first : (sampleRun sampleScene sampleWorld (samplePart 50000000 50000000)).program =
    .done (sampleResult 49000000) := rfl
  have second : (sampleRun sampleScene sampleFunded (samplePart 50000000 50000000)).program =
    .done (sampleResult 49000000) := rfl
  intro call member
  simp only [sampleHalves, List.mem_cons, List.not_mem_nil, or_false] at member
  rcases member with rfl | rfl
  · exact sampleRun_forwards first rfl rfl
  · exact sampleRun_forwards second rfl rfl

/-- Two halves stay within the channel that the first of them asks for. -/
theorem parts_within_shares_sample :
    (forwardedAmounts sampleHalves).sum ≤ 98000000 ∧
      ∃ trail later request reply,
        (sampleInterceptor.intercept (samplePart 50000000 50000000)).Runs trail later ∧
        ⟨.openChannel request, reply⟩ ∈ trail ∧
        (forwardedAmounts sampleHalves).sum ≤ 1000 * request.capacitySat.toNat := by
  have small : ∀ call ∈ sampleHalves, call.1.outgoingAmountMsat.toNat < 2 ^ 63 := by decide
  obtain ⟨_, _, _, within⟩ := parts_within_shares (by decide) (by decide) (by decide) small
    sampleHalves_forwarded
  obtain ⟨most, fits⟩ := within (by decide)
  obtain ⟨trail, same, runs⟩ := Thread.drive_runs (sampleScene.answer sampleSha256) 20
    ⟨sampleWorld, [], sampleInterceptor.intercept (samplePart 50000000 50000000)⟩
  obtain rfl := same
  have asked : ⟨.openChannel (sampleInterceptor.openChannelRequest sampleRow.destination 100000000
      (sampleInterceptor.feeOrTarget (.ok none))), .ok sampleScene.channelPoint⟩ ∈
      (sampleRun sampleScene sampleWorld (samplePart 50000000 50000000)).history :=
    List.mem_of_getElem? (i := 6) rfl
  exact ⟨most, _, _, _, _, runs, asked, fits (by decide) _ _ _ _ _ _ runs rfl rfl asked⟩

theorem parts_complete_sample : (forwardedAmounts sampleHalves).sum = 98000000 :=
  ((parts_complete_iff (by decide) (by decide) (by decide) sampleHalves_forwarded).mpr
    (by decide)).1

/-- Three parts of the sample payment, none of which has a whole share. -/
def sampleThirds : List (InterceptRequest × InterceptResult) :=
  [(samplePart 33333333 33333333, sampleResult 32666666),
    (samplePart 33333333 33333333, sampleResult 32666666),
    (samplePart 33333334 33333334, sampleResult 32666667)]

/-- All of the registered amount comes in, and one millisatoshi of the total is missing. -/
theorem thirds_incomplete :
    (partAmounts sampleThirds).sum = 100000000 ∧
      (∀ call ∈ sampleThirds, 0 < call.1.outgoingAmountMsat.toNat ∧
        Forwards sampleInterceptor 100000000 98000000 call.1 call.2 ∧
        call.2.totalAmountMsat = 98000000) ∧
      (forwardedAmounts sampleThirds).sum = 97999999 := by
  refine ⟨by decide, ?_, by decide⟩
  have first : (sampleRun sampleScene sampleWorld (samplePart 33333333 33333333)).program =
    .done (sampleResult 32666666) := rfl
  have second : (sampleRun sampleScene sampleFunded (samplePart 33333333 33333333)).program =
    .done (sampleResult 32666666) := rfl
  have third : (sampleRun sampleScene sampleFunded (samplePart 33333334 33333334)).program =
    .done (sampleResult 32666667) := rfl
  intro call member
  simp only [sampleThirds, List.mem_cons, List.not_mem_nil, or_false] at member
  rcases member with rfl | rfl | rfl
  · exact ⟨by decide, sampleRun_forwards first rfl rfl, rfl⟩
  · exact ⟨by decide, sampleRun_forwards second rfl rfl, rfl⟩
  · exact ⟨by decide, sampleRun_forwards third rfl rfl, rfl⟩

end sample

end Lspd.Interceptor
