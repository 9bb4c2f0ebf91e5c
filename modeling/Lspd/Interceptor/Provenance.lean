import Lspd.Interceptor.Consistency
import Lspd.Machine.Int64

/-! Where a forwarding result comes from and what precedes a channel opening,
in terms of the registered row and of what the dependencies answered. -/

namespace Lspd.Interceptor

open Lspd.Common Lspd.Lightning Lspd.Postgres Lspd.Process

/-- The row that answered an execution, as it was then; it still lives. -/
structure Answered (sha256 : Bytes → Bytes) (payments : Payments) (call : Call)
    (row : PaymentRow) : Prop where
  found : row.Matches sha256 call.leader.paymentHash
  read : ∃ info, info? call.history = some info ∧ row.info = .value info
  lives : ∃ now ∈ payments.rows, row.Grows now

/-- Every part of a forwarding result, traced back. -/
structure Provenance (call : Call) (result : InterceptResult) (row : PaymentRow) : Prop where
  peer : ∃ peer err, ⟨.getPeerId call.leader.scid, (peer, err)⟩ ∈ call.history ∧
    (peer = none ∨ peer = some row.destination)
  destination : result.destination = row.destination
  paymentSecret : result.paymentSecret = some row.paymentSecret
  totalAmountMsat : result.totalAmountMsat = row.outgoingAmountMsat.toUInt64
  channel : ∃ channelPoint, result.channelPoint = some channelPoint ∧
    (row.channelPoint = some channelPoint ∨
      ∃ request, ⟨.openChannel request, .ok channelPoint⟩ ∈ call.history ∧
        request.destination = row.destination) ∧
    ∃ chanResult err,
      ⟨.getChannel row.destination channelPoint, (some chanResult, err)⟩ ∈ call.history ∧
        chanResult.confirmedScid.or chanResult.aliasScid = some result.scid

/-- What had been established before `OpenChannel` was called. -/
structure Guarded (i : Interceptor) (leader : InterceptRequest) (earlier : Trail)
    (request : OpenChannelRequest) (row : PaymentRow) : Prop where
  own : row.paymentHash = leader.paymentHash
  unfunded : row.channelPoint = none
  delta : (i.config.timeLockDelta.toNat : Int) ≤
    leader.incomingExpiry.toNat - leader.outgoingExpiry.toNat
  valid : ∃ extended validUntil now, row.openingFeeParams = .object extended ∧
    i.time.parse extended.params.validUntil = some validUntil ∧
    (clocks earlier).getLast? = some now ∧
    (now ≤ validUntil ∨
      ⟨.isCurrentChainFeeCheaper extended.token extended.params, true⟩ ∈ earlier)
  capacity : (request.capacitySat.toNat : Int) ≠ i.config.publicChannelAmount.toInt

variable {sha256 : Bytes → Bytes} {i : Interceptor} {initial : World} {group : Calls}

theorem channelCapacity_ne (incomingAmountMsat : Int64) :
    i.channelCapacity incomingAmountMsat ≠ i.config.publicChannelAmount := by
  unfold channelCapacity
  dsimp only
  split
  · rename_i same
    rw [same]
    intro wraps
    have step : i.config.publicChannelAmount + 1 - i.config.publicChannelAmount = 1 := by grind
    rw [wraps] at step
    simp at step
  · assumption

theorem Consistent.answered (consistent : Consistent sha256 group) {call : Call}
    {info : PaymentInfo} (member : call ∈ group.executions) (read : info? call.history = some info)
    (registered : info.paymentSecret.isSome) :
    ∃ row, Answered sha256 group.world.payments call row ∧ row.info = .value info := by
  obtain ⟨row, found⟩ := consistent.reads call member info read registered
  exact ⟨row, ⟨found.found, ⟨info, read, found.info_eq⟩, found.lives⟩, found.info_eq⟩

theorem Resumed.provenance {call : Call} {result : InterceptResult} {info : PaymentInfo}
    {channelPoint : OutPoint} {amt : Int64} {scid : ShortChannelID} {htlc : OpenChannelHtlc}
    {stored : Bool} {row : PaymentRow}
    (resumed : Resumed i call.leader call.history result info channelPoint amt scid htlc stored)
    (same : row.info = .value info) : Provenance call result row := by
  obtain ⟨_, secret, destination, _, outgoing, channel, _⟩ := PaymentRow.info_fields same
  obtain ⟨peer, err, asked, peer_eq⟩ := resumed.vetted.peer
  refine ⟨⟨peer, err, asked, destination ▸ peer_eq⟩, ?_, ?_, ?_, channelPoint, ?_, ?_, ?_⟩
  · rw [resumed.result_eq, ← destination, onionResult]
  · rw [resumed.result_eq, ← secret, onionResult]
  · rw [resumed.result_eq, ← outgoing, onionResult]
  · rw [resumed.result_eq, onionResult]
  · rcases resumed.usable with ⟨recorded, _⟩ | ⟨_, _, _, request, opening, peer⟩
    · exact .inl (channel ▸ recorded)
    · exact .inr ⟨request, opening, peer.trans destination⟩
  · rw [← destination, resumed.result_eq]
    exact resumed.channel

theorem OpenJustified.guarded {leader : InterceptRequest} {earlier : Trail}
    {request : OpenChannelRequest} {info : PaymentInfo} {params : OpeningFeeParams}
    {validUntil now : Time} {row : PaymentRow}
    (justified : OpenJustified i leader earlier request info params validUntil now)
    (same : row.info = .value info) : Guarded i leader earlier request row := by
  obtain ⟨hash, _, _, _, _, channel, extended, column, given, token⟩ := PaymentRow.info_fields same
  have inForce : extended.params = params := by
    rcases justified.inForce with some | ⟨none, _⟩
    · exact Option.some.inj (given.symm.trans some)
    · simp [given] at none
  obtain ⟨fee, request_eq⟩ := justified.request
  refine ⟨?_, channel ▸ justified.unfunded, justified.delta, ?_, ?_⟩
  · rw [← hash, justified.vetted.probe justified.unfunded]
  · refine ⟨extended, validUntil, now, column, inForce ▸ justified.parses, justified.clock, ?_⟩
    rw [inForce, ← token]
    exact justified.valid
  · rw [request_eq]
    exact Machine.toNat_toUInt64_ne (channelCapacity_ne info.incomingAmountMsat)

/-- A second opening is never asked for. -/
theorem opens_length_le {req : InterceptRequest} {trail : Trail}
    (obeyed : (contract i req).Obeyed trail) : (opens trail).length ≤ 1 := by
  induction trail using List.reverseRecOn with
  | nil => simp
  | append_singleton earlier event ih =>
    have allowed := allowed_of_obeyed_snoc obeyed
    have before := ih (obeyed_of_snoc obeyed)
    obtain ⟨op, reply⟩ := event
    cases op with
    | openChannel request => simp [allowed.1, opens?]
    | _ => simpa [opens?] using before

/-- In every interleaving, a forwarding result is made of the registered row
and the channel found for it, and `OpenChannel` is called at most once by an
execution and only behind all guards. -/
theorem intercept_guarded (reachable : (service sha256 i).Reachable initial group) :
    (∀ landing ∈ group.landings, landing.result.action = .resumeWithOnion →
      ∃ row, Answered sha256 group.world.payments landing.execution row ∧
        Provenance landing.execution landing.result row) ∧
    ∀ call ∈ group.executions, (opens call.history).length ≤ 1 ∧
      ∀ earlier request reply later,
        call.history = earlier ++ ⟨.openChannel request, reply⟩ :: later →
          ∃ row, Answered sha256 group.world.payments call row ∧
            Guarded i call.leader earlier request row := by
  have sound := Service.Reachable.sound (intercept_follows i) reachable
  have consistent := consistent_of_reachable reachable
  constructor
  · intro landing member onion
    obtain ⟨info, channelPoint, amt, scid, htlc, stored, resumed⟩ :=
      (sound.landings landing member).2.resumed onion
    obtain ⟨row, answered, same⟩ := consistent.answered
      (group.finished_subset (List.mem_map_of_mem member)) resumed.vetted.read
      resumed.vetted.registered
    exact ⟨row, answered, Resumed.provenance resumed same⟩
  · intro call member
    have obeyed := sound.obeyed call member
    refine ⟨opens_length_le obeyed, ?_⟩
    intro earlier request reply later history
    obtain ⟨_, info, params, validUntil, now, justified⟩ := obeyed earlier _ later history
    have read : info? call.history = some info := by
      rw [history]
      exact info?_append _ justified.vetted.read
    obtain ⟨row, answered, same⟩ := consistent.answered member read justified.vetted.registered
    exact ⟨row, answered, justified.guarded same⟩

/-- The first part of the sample payment opens a channel and is forwarded. -/
theorem intercept_guarded_sample :
    (∃ row, Provenance (sampleCall (samplePart 50000000 51000000)) (sampleResult 49000000) row) ∧
      ∃ request row, Guarded sampleInterceptor (samplePart 50000000 51000000)
        ((sampleCall (samplePart 50000000 51000000)).history.take 6) request row := by
  have reachable := sample_serve sampleScene .refl (samplePart 50000000 51000000) [] (by simp)
    (sampleResult 49000000) sampleRun_finishes
  obtain ⟨forwarded, opening⟩ := intercept_guarded reachable
  obtain ⟨row, _, provenance⟩ := forwarded _ (List.mem_singleton_self _) rfl
  refine ⟨⟨row, provenance⟩, ?_⟩
  have asked := (opening (sampleCall (samplePart 50000000 51000000))
    (Group.finished_subset _ (by simp [Group.finished, Landing.execution, sampleCall]))).2
  obtain ⟨other, _, guarded⟩ := asked
    ((sampleCall (samplePart 50000000 51000000)).history.take 6)
    (sampleInterceptor.openChannelRequest sampleRow.destination sampleRow.incomingAmountMsat
      ⟨none, some 6⟩)
    (.ok sampleScene.channelPoint) ((sampleCall (samplePart 50000000 51000000)).history.drop 7) rfl
  exact ⟨_, other, guarded⟩

end Lspd.Interceptor
