import Lspd.ChannelOpener.ChannelInformation
import Lspd.ChannelOpener.Fees
import Lspd.Interceptor.Lookups

/-! Channels for registrations whose fee parameters have expired: `Intercept`
opens them when the current fees are said to be cheaper. -/

namespace Lspd.ChannelOpener

open Lspd.Common Lspd.Interceptor Lspd.Lightning Lspd.Postgres Lspd.Process
open Lspd.Process.Program (runs_ask)

variable {Key Point : Type}

/-- The fee service, if it was asked, answered from the settings there are. -/
def FeesCurrent (s : OpeningService Key Point) : Event Op Reply → Prop
  | ⟨.isCurrentChainFeeCheaper token params, cheaper⟩ =>
    cheaper = s.isCurrentChainFeeCheaper token params
  | _ => True

/-- Some execution opens a channel for the payment when the last time it read is
past the instant its fee parameters were valid until. -/
def OpensExpired (s : OpeningService Key Point) (i : Interceptor) (info : PaymentInfo)
    (validUntil : Time) : Prop :=
  ∃ req earlier request reply later now,
    (i.intercept req).Runs (earlier ++ [⟨.openChannel request, reply⟩]) later ∧
      info? earlier = some info ∧ (∀ event ∈ earlier, FeesCurrent s event) ∧
      (clocks earlier).getLast? = some now ∧ validUntil < now

/-- A registered payment without a channel, whose fee parameters are given. -/
structure Unopened (i : Interceptor) (info : PaymentInfo) (params : OpeningFeeParams)
    (validUntil : Time) : Prop where
  registered : info.paymentSecret.isSome
  unfunded : info.channelPoint = none
  given : info.params = some params
  parses : i.time.parse params.validUntil = some validUntil

section expired

variable {s : OpeningService Key Point} {i : Interceptor} {info : PaymentInfo}
  {params : OpeningFeeParams} {validUntil : Time} {settings : List OpeningFeeParamsSetting}

theorem isCurrentChainFeeCheaper_iff {token : String}
    (stored : s.getFeeParamsSettings token = .ok settings) :
    s.isCurrentChainFeeCheaper token params = true ↔
      ∃ setting ∈ settings, setting.params.minFeeMsat ≤ params.minFeeMsat := by
  rw [OpeningService.isCurrentChainFeeCheaper, stored]
  simp

/-- A charge is covered when its minimum is and the rate is not too high for the amount. -/
theorem charge_le_iff (incoming paid : Int) (minMsat : UInt64) (proportional : UInt32) :
    charge incoming minMsat proportional ≤ paid ↔
      (minMsat.toNat : Int) ≤ paid ∧
        incoming * proportional.toNat < 1000000000 * (paid / 1000 + 1) := by
  rw [charge, Int.max_le, proportionalFee]
  omega

section opening

variable {req : InterceptRequest} {now : Time}
  (delta : (i.config.timeLockDelta.toNat : Int) ≤
    req.incomingExpiry.toNat - req.outgoingExpiry.toNat) (late : validUntil < now)
include delta late

/-- The calls from the check of the validity to an opening that fails. -/
def expiredTrail (i : Interceptor) (info : PaymentInfo) (params : OpeningFeeParams) (now : Time) :
    Trail :=
  [⟨.now, now⟩, ⟨.isCurrentChainFeeCheaper info.token params, true⟩, ⟨.estimateFeeRate, .ok none⟩,
    ⟨.openChannel (i.openChannelRequest info.destination info.incomingAmountMsat
      (i.feeOrTarget (.ok none))), .error "offline"⟩]

theorem openIfValid_opens (parses : i.time.parse params.validUntil = some validUntil) :
    (i.openIfValid req info params).Runs (expiredTrail i info params now)
      (pure (.failWithCode failureTemporaryChannelFailure)) := by
  unfold openIfValid expiredTrail
  rw [if_neg (by omega), parses]
  apply runs_ask
  rw [if_pos late]
  apply runs_ask
  rw [if_pos rfl]
  apply Program.Runs.call
  apply Program.Runs.call
  exact .here

theorem intercept_opens (unopened : Unopened i info params validUntil)
    (own : info.paymentHash = req.paymentHash) :
    (i.intercept req).Runs
      (⟨.paymentInfo req.paymentHash, .value info⟩ :: ⟨.getPeerId req.scid, (none, none)⟩ ::
        ⟨.isConnected info.destination, .ok true⟩ :: ⟨.goNotify (encodeToString info.destination)
          (encodeToString req.paymentHash), ()⟩ :: expiredTrail i info params now)
      (pure (.failWithCode failureTemporaryChannelFailure)) := by
  rw [intercept_eq]
  refine runs_ask _ (runs_ask _ ?_)
  rw [interceptPeer, nextHop, if_pos unopened.registered]
  apply interceptNextHop_passes (fun probe => by simp [isProbe, own] at probe)
  apply Program.Runs.call
  change (if info.paymentSecret.isSome then i.interceptRegistered req info else pure .resume).Runs
    (expiredTrail i info params now) _
  rw [if_pos unopened.registered, interceptRegistered, unopened.unfunded, unopened.given]
  exact openIfValid_opens delta late unopened.parses

end opening

/-- A channel is opened late only when the current fees are said to be cheaper. -/
theorem cheaper_of_opensExpired (given : info.params = some params)
    (parses : i.time.parse params.validUntil = some validUntil)
    (opens : OpensExpired s i info validUntil) :
    s.isCurrentChainFeeCheaper info.token params = true := by
  obtain ⟨req, earlier, request, reply, later, now, runs, read, current, clock, late⟩ := opens
  obtain ⟨_, other, inForce, deadline, time, justified⟩ :=
    obeyed_of_runs runs earlier ⟨.openChannel request, reply⟩ [] rfl
  obtain rfl : other = info := Option.some.inj (justified.vetted.read.symm.trans read)
  obtain rfl : inForce = params := by
    rcases justified.inForce with same | ⟨absent, _⟩
    · exact Option.some.inj (same.symm.trans given)
    · rw [given] at absent
      cases absent
  obtain rfl : deadline = validUntil := Option.some.inj (justified.parses.symm.trans parses)
  obtain rfl : time = now := Option.some.inj (justified.clock.symm.trans clock)
  rcases justified.valid with early | answered
  · exact absurd late (Int.not_lt.mpr early)
  · exact (current _ answered).symm

/-- An expired registration is opened exactly when some current minimum is no higher. -/
theorem opensExpired_iff (unopened : Unopened i info params validUntil)
    (stored : s.getFeeParamsSettings info.token = .ok settings) :
    OpensExpired s i info validUntil ↔
      ∃ setting ∈ settings, setting.params.minFeeMsat ≤ params.minFeeMsat := by
  rw [← isCurrentChainFeeCheaper_iff stored]
  constructor
  · exact cheaper_of_opensExpired unopened.given unopened.parses
  · intro cheaper
    let req : InterceptRequest :=
      { identifier := "", scid := 0, paymentHash := info.paymentHash, incomingAmountMsat := 0,
        outgoingAmountMsat := 0, incomingExpiry := 4294967295, outgoingExpiry := 0 }
    have delta : (i.config.timeLockDelta.toNat : Int) ≤
        req.incomingExpiry.toNat - req.outgoingExpiry.toNat := by
      have bound := i.config.timeLockDelta.toNat_lt
      change (i.config.timeLockDelta.toNat : Int) ≤ 4294967295 - 0
      omega
    have opens := intercept_opens delta (Int.lt_succ validUntil) unopened rfl
    let earlier : Trail :=
      [⟨.paymentInfo req.paymentHash, .value info⟩, ⟨.getPeerId req.scid, (none, none)⟩,
        ⟨.isConnected info.destination, .ok true⟩, ⟨.goNotify (encodeToString info.destination)
          (encodeToString req.paymentHash), ()⟩, ⟨.now, validUntil + 1⟩,
        ⟨.isCurrentChainFeeCheaper info.token params, true⟩, ⟨.estimateFeeRate, .ok none⟩]
    refine ⟨req, earlier, _, _, _, _, opens, rfl, ?_, rfl, Int.lt_succ validUntil⟩
    simp only [earlier, List.forall_mem_cons]
    exact ⟨trivial, trivial, trivial, trivial, trivial, cheaper.symm, trivial, by simp⟩

/-- What the payment pays covers a current setting whenever its channel is opened
late, exactly when no current minimum is low enough to open it, or the rate of a
setting, which is not compared, is low enough for the amount as well. -/
theorem expired_covered_iff (unopened : Unopened i info params validUntil)
    (stored : s.getFeeParamsSettings info.token = .ok settings) :
    (OpensExpired s i info validUntil → ∃ setting ∈ settings,
      charge info.incomingAmountMsat.toInt setting.params.minFeeMsat setting.params.proportional ≤
        info.incomingAmountMsat.toInt - info.outgoingAmountMsat.toInt) ↔
      (∀ setting ∈ settings, params.minFeeMsat < setting.params.minFeeMsat) ∨
        ∃ setting ∈ settings,
          (setting.params.minFeeMsat.toNat : Int) ≤
            info.incomingAmountMsat.toInt - info.outgoingAmountMsat.toInt ∧
          info.incomingAmountMsat.toInt * setting.params.proportional.toNat <
            1000000000 *
              ((info.incomingAmountMsat.toInt - info.outgoingAmountMsat.toInt) / 1000 + 1) := by
  rw [opensExpired_iff unopened stored]
  simp only [charge_le_iff]
  constructor
  · intro covered
    by_cases opens : ∃ setting ∈ settings, setting.params.minFeeMsat ≤ params.minFeeMsat
    · exact .inr (covered opens)
    · left
      intro setting member
      apply UInt64.not_le.mp
      intro low
      exact opens ⟨setting, member, low⟩
  · rintro (higher | covered) ⟨setting, member, low⟩
    · exact absurd low (UInt64.not_le.mpr (higher setting member))
    · exact covered

/-- A payment whose channel is opened late was registered with a minimum that is
no lower than a current one, and pays at least that one. -/
theorem expired_minimum_covered {fees : RpcOpeningFeeParams}
    (given : info.params = some fees.toCommon)
    (parses : i.time.parse fees.validUntil = some validUntil)
    (stored : s.getFeeParamsSettings info.token = .ok settings)
    (accepted : checkPayment fees info.incomingAmountMsat info.outgoingAmountMsat = .ok ())
    (opens : OpensExpired s i info validUntil) :
    ∃ setting ∈ settings, setting.params.minFeeMsat ≤ fees.minMsat ∧
      (0 ≤ info.incomingAmountMsat.toInt → 0 ≤ info.outgoingAmountMsat.toInt →
        fees.minMsat.toNat < 2 ^ 63 →
        (setting.params.minFeeMsat.toNat : Int) ≤
          info.incomingAmountMsat.toInt - info.outgoingAmountMsat.toInt) := by
  obtain ⟨setting, member, low⟩ :=
    (isCurrentChainFeeCheaper_iff stored).mp (cheaper_of_opensExpired given parses opens)
  refine ⟨setting, member, low, ?_⟩
  intro nonneg proper fits
  have paid := ((checkPayment_ok_iff nonneg proper).mp accepted).1
  have minimum := toInt_minMsat fees.minMsat
  have lower : setting.params.minFeeMsat.toNat ≤ fees.minMsat.toNat := UInt64.le_iff_toNat_le.mp low
  omega

end expired

section sample

theorem sampleInfo_unopened :
    Unopened sampleInterceptor sampleInfo sampleFees.toCommon (1672531200 * second) :=
  ⟨rfl, rfl, rfl, rfl⟩

/-- One current setting with a minimum of 1000 sat. -/
def currentFees (proportional : UInt32) : List OpeningFeeParamsSetting :=
  [⟨3600 * second, ⟨1000000, proportional, "", 1008, 2016, ""⟩⟩]

def currentService (proportional : UInt32) : OpeningService Nat Bytes :=
  { feeService with getFeeParamsSettings := fun _ => .ok (currentFees proportional) }

theorem sampleInfo_opens (proportional : UInt32) :
    OpensExpired (currentService proportional) sampleInterceptor sampleInfo (1672531200 * second) :=
  (opensExpired_iff sampleInfo_unopened rfl).mpr
    ⟨_, List.mem_singleton_self _, show (1000000 : UInt64) ≤ 2000000 by decide⟩

/-- The payment pays 2000 sat, where the current minimum is 1000. -/
theorem expired_minimum_sample :
    OpensExpired (currentService 4000) sampleInterceptor sampleInfo (1672531200 * second) ∧
      ∃ setting ∈ currentFees 4000, (setting.params.minFeeMsat.toNat : Int) ≤ 2000000 := by
  refine ⟨sampleInfo_opens 4000, ?_⟩
  obtain ⟨setting, member, _, covered⟩ :=
    expired_minimum_covered sampleInfo_unopened.given sampleInfo_unopened.parses
      (s := currentService 4000) rfl rfl (sampleInfo_opens 4000)
  exact ⟨setting, member, covered (by decide) (by decide) (by decide)⟩

/-- At a rate of three percent it pays 2000 sat where 3000 are charged now. -/
theorem dearer_rate_opened :
    checkPayment sampleFees 100000000 98000000 = .ok () ∧
      OpensExpired (currentService 30000) sampleInterceptor sampleInfo (1672531200 * second) ∧
      ¬ ∃ setting ∈ currentFees 30000,
        charge 100000000 setting.params.minFeeMsat setting.params.proportional ≤ 2000000 := by
  refine ⟨rfl, sampleInfo_opens 30000, ?_⟩
  rintro ⟨setting, member, covered⟩
  obtain rfl := List.mem_singleton.mp member
  exact absurd covered (by decide)

end sample

end Lspd.ChannelOpener
