import Lspd.Interceptor.Funding

/-! What the callers of one execution get. The execution computes with the
request of its first caller, so the amount and the record are that caller's. -/

namespace Lspd.Interceptor

open Lspd.Common Lspd.Lightning Lspd.Postgres Lspd.Process Lspd.Store

variable {sha256 : Bytes → Bytes} {i : Interceptor} {initial : World} {group after : Calls}

section amount

/-- The amounts the computation is meant for: a registration that takes in
something and passes on no negative amount, and no overflow on the way. -/
structure InRange (row : PaymentRow) (req : InterceptRequest) : Prop where
  incoming : 0 < row.incomingAmountMsat.toInt
  outgoing : 0 ≤ row.outgoingAmountMsat.toInt
  part : req.outgoingAmountMsat.toNat < 2 ^ 63
  quotient : row.outgoingAmountMsat.toInt * req.outgoingAmountMsat.toNat <
    row.incomingAmountMsat.toInt * 2 ^ 64

theorem forwardAmount_floor {row : PaymentRow} {req : InterceptRequest} {amt : Int64}
    (range : InRange row req)
    (computed : forwardAmount row.outgoingAmountMsat req.outgoingAmountMsat
      row.incomingAmountMsat = some amt) :
    (amt.toUInt64.toNat : Int) =
      (row.outgoingAmountMsat.toInt * req.outgoingAmountMsat.toNat).fdiv
        row.incomingAmountMsat.toInt := by
  obtain ⟨incoming, outgoing, part, quotient⟩ := range
  unfold forwardAmount at computed
  split at computed
  · cases computed
  · cases computed
    rw [Machine.toInt_toInt64_of_lt part, Int.fdiv_eq_ediv_of_nonneg _ (Int.le_of_lt incoming),
      Machine.toNat_toUInt64_ofInt]
    have low : 0 ≤ row.outgoingAmountMsat.toInt * req.outgoingAmountMsat.toNat /
        row.incomingAmountMsat.toInt :=
      Int.ediv_nonneg (Int.mul_nonneg outgoing (Int.natCast_nonneg _)) (Int.le_of_lt incoming)
    have high : row.outgoingAmountMsat.toInt * req.outgoingAmountMsat.toNat /
        row.incomingAmountMsat.toInt < 2 ^ 64 :=
      Int.ediv_lt_of_lt_mul incoming (Int.mul_comm _ (2 ^ 64) ▸ quotient)
    exact Int.emod_eq_of_lt low high

end amount

/-- The rows the executions have added to `open_channel_htlcs`. -/
def recordedRows (group : Calls) : List OpenChannelHtlcRow :=
  group.executions.flatMap fun call => (records call.history).map fun record => record.1.row

/-- No write to `open_channel_htlcs` failed. -/
def HistorySucceeds (group : Calls) : Prop :=
  ∀ call ∈ group.executions, ∀ record ∈ records call.history, record.2 = true

theorem HistorySucceeds.before (effect : (service sha256 i).Effect group after)
    (succeeds : HistorySucceeds after) : HistorySucceeds group :=
  effect.forall_before (fun call => ∀ record ∈ records call.history, record.2 = true)
    (fun _ _ _ later record member => later record (by simp [member])) succeeds

theorem respond_openChannelHtlcs {world later : World} {op : Op} {reply : Reply op}
    (responds : Respond sha256 world op reply later)
    (succeeds : ∀ record ∈ records [⟨op, reply⟩], record.2 = true) :
    later.openChannelHtlcs =
      world.openChannelHtlcs ++ (records [⟨op, reply⟩]).map fun record => record.1.row := by
  cases op with
  | paymentInfo hash => simp [responds.1, record?]
  | setFundingTx hash channelPoint =>
    rcases responds with effect | ⟨rfl, _⟩
    · unfold afterSetFundingTx at effect
      split at effect
      · cases effect
        simp [record?]
      · cases effect
    · simp [record?]
  | updateChannels updates =>
    rcases responds with effect | ⟨rfl, _⟩
    · obtain ⟨channels, _, rfl⟩ := Option.map_eq_some_iff.mp effect
      simp [record?]
    · simp [record?]
  | addOpenChannelHtlc htlc =>
    rcases responds with effect | ⟨rfl, failed⟩
    · cases effect
      simp [record?, afterAddOpenChannelHtlc]
    · simp [record?, failed] at succeeds
  | _ => simp [show later = world from responds, record?]

/-- While no write fails, `open_channel_htlcs` grows by exactly what the
executions recorded. -/
theorem openChannelHtlcs_perm (reachable : (service sha256 i).Reachable initial group)
    (succeeds : HistorySucceeds group) :
    group.world.openChannelHtlcs.Perm (initial.openChannelHtlcs ++ recordedRows group) := by
  induction reachable with
  | refl => simp [Service.idle, recordedRows, Group.executions, Group.finished, Group.running]
  | @tail group after reachable step ih =>
    have before := ih (succeeds.before step.effect)
    cases step.effect with
    | quiet fresh world empty executions running =>
      rw [world]
      refine before.trans (List.Perm.append_left _ ?_)
      exact (Service.flatMap_quiet (fun call member => by simp [empty call member]) executions).symm
    | outside interferes finished running =>
      have rows : recordedRows after = recordedRows group := Service.flatMap_outside finished running
      rw [rows]
      generalize after.world = later at interferes
      cases interferes with
      | registers registration payments inserted => exact before
      | syncs channels => exact before
    | event earlier rest leader history happened responds finished running extended =>
      have member : (⟨leader, history ++ [happened]⟩ : Call) ∈ after.executions :=
        after.running_subset (by simp [extended])
      have perm : (recordedRows after).Perm
          ((records [happened]).map (fun record => record.1.row) ++ recordedRows group) :=
        Service.flatMap_event (by simp) finished running extended
      rw [respond_openChannelHtlcs responds fun record new =>
        succeeds _ member record (by rw [records_append]; exact List.mem_append_right _ new)]
      refine (before.append_right _).trans ?_
      rw [List.append_assoc]
      exact (List.perm_append_comm.trans perm.symm).append_left _

abbrev Answer := Landing InterceptRequest Op Reply InterceptResult

/-- The execution was answered from the row of this payment. -/
def ReadRow (answer : Answer) (row : PaymentRow) : Prop :=
  (info? answer.history).map PaymentInfo.paymentHash = some row.paymentHash

/-- Every caller got the amount of its own request, and the execution recorded
one htlc for each caller, with that caller's amounts. -/
structure OwnResults (row : PaymentRow) (answer : Answer) : Prop where
  amounts : ∀ caller ∈ answer.callers, (answer.result.amountMsat.toNat : Int) =
    (row.outgoingAmountMsat.toInt * caller.outgoingAmountMsat.toNat).fdiv
      row.incomingAmountMsat.toInt
  recorded : ((records answer.history).map fun record =>
      (record.1.originalAmountMsat, record.1.incomingAmountMsat)).Perm
    (answer.callers.map fun caller => (caller.outgoingAmountMsat, caller.incomingAmountMsat))

/-- The amounts an execution used are those of the row it was answered from. -/
theorem Consistent.amounts {answer : Answer} {row : PaymentRow} {info : PaymentInfo}
    (consistent : Consistent sha256 group) (member : answer ∈ group.landings)
    (present : row ∈ group.world.payments.rows) (same : ReadRow answer row)
    (read : info? answer.history = some info) (registered : info.paymentSecret.isSome) :
    info.outgoingAmountMsat = row.outgoingAmountMsat ∧
      info.incomingAmountMsat = row.incomingAmountMsat := by
  obtain ⟨old, answered, info_eq⟩ := consistent.answered
    (group.finished_subset (List.mem_map_of_mem member)) read registered
  obtain ⟨now, alive, grows⟩ := answered.lives
  obtain ⟨hash, _, _, incoming, outgoing, _⟩ := PaymentRow.info_fields info_eq
  have key : now.paymentHash = row.paymentHash := by
    rw [ReadRow, read] at same
    rw [grows.paymentHash, ← hash]
    exact Option.some.inj same
  obtain rfl : now = row := Table.eq_of_key_eq alive present key
  rw [outgoing, incoming, grows.column PaymentRow.outgoingAmountMsat fun _ => rfl,
    grows.column PaymentRow.incomingAmountMsat fun _ => rfl]
  exact ⟨rfl, rfl⟩

/-- In every interleaving, the callers of a forwarding execution get results of
their own exactly when the execution had one caller only: no other call with
its payment hash arrived while it ran. -/
theorem own_results_iff_alone (reachable : (service sha256 i).Reachable initial group) :
    (HistorySucceeds group →
      group.world.openChannelHtlcs.Perm (initial.openChannelHtlcs ++ recordedRows group)) ∧
    (∀ answer ∈ group.landings, answer.result.action ≠ .resumeWithOnion →
      records answer.history = []) ∧
    ∀ answer ∈ group.landings, answer.result.action = .resumeWithOnion →
      ∀ row ∈ group.world.payments.rows, ReadRow answer row → InRange row answer.leader →
        (OwnResults row answer ↔ answer.followers = []) := by
  have sound := Service.Reachable.sound (intercept_follows i) reachable
  refine ⟨openChannelHtlcs_perm reachable,
    fun answer member other => (sound.landings answer member).2.unrecorded other, ?_⟩
  intro answer member onion row present read range
  obtain ⟨info, channelPoint, amt, scid, htlc, stored, resumed⟩ :=
    (sound.landings answer member).2.resumed onion
  obtain ⟨outgoing, incoming⟩ := (consistent_of_reachable reachable).amounts member present read
    resumed.vetted.read resumed.vetted.registered
  constructor
  · intro own
    -- one record was made, so there is one caller
    have length := own.recorded.length_eq
    simpa [resumed.recorded, Landing.callers] using length.symm
  · intro alone
    have callers : answer.callers = [answer.leader] := by rw [Landing.callers, alone]
    constructor
    · intro caller one
      rw [callers, List.mem_singleton] at one
      rw [one, resumed.result_eq, onionResult]
      exact forwardAmount_floor range (outgoing ▸ incoming ▸ resumed.amount)
    · rw [callers, resumed.recorded]
      simp [resumed.original, resumed.incoming]

/-- Both parts of the sample payment, served one after the other, get their own results. -/
theorem own_results_sample :
    sampleParts.world.openChannelHtlcs.Perm
        (sampleWorld.openChannelHtlcs ++ recordedRows sampleParts) ∧
      ∃ first second, sampleParts.landings = [first, second] ∧
      OwnResults (sampleRow.fund sampleScene.channelPoint) first ∧
      OwnResults (sampleRow.fund sampleScene.channelPoint) second := by
  have succeeds : HistorySucceeds sampleParts := by
    intro call member
    rcases List.mem_cons.mp member with rfl | later
    · decide
    · obtain rfl := List.mem_singleton.mp later
      decide
  obtain ⟨recorded, _, own⟩ := own_results_iff_alone sampleParts_reachable
  refine ⟨recorded succeeds, _, _, rfl, ?_, ?_⟩
  · exact (own _ List.mem_cons_self rfl _ (List.mem_singleton_self _) rfl
      ⟨by decide, by decide, by decide, by decide⟩).mpr rfl
  · exact (own _ (List.mem_cons_of_mem _ List.mem_cons_self) rfl _ (List.mem_singleton_self _) rfl
      ⟨by decide, by decide, by decide, by decide⟩).mpr rfl

/-- Two parts of different size that arrive together: the second is forwarded
with the amount of the first and leaves no record. -/
theorem shared_result_not_own :
    ∃ group : Calls, (service sampleSha256 sampleInterceptor).Reachable sampleWorld group ∧
      HistorySucceeds group ∧
      ∃ answer ∈ group.landings, answer.result.action = .resumeWithOnion ∧
        ∃ row ∈ group.world.payments.rows, ReadRow answer row ∧
          ∃ caller ∈ answer.callers, InRange row caller ∧
            (answer.result.amountMsat.toNat : Int) ≠
              (row.outgoingAmountMsat.toInt * caller.outgoingAmountMsat.toNat).fdiv
                row.incomingAmountMsat.toInt ∧
            ∀ htlc ∈ group.world.openChannelHtlcs,
              htlc.originalAmtMsat ≠ caller.outgoingAmountMsat.toInt64 := by
  refine ⟨_, sample_serve sampleScene .refl (samplePart 50000000 51000000)
    [samplePart 48000000 49000000] (by simp [samplePart]) (sampleResult 49000000) sampleRun_finishes, ?_,
    _, List.mem_singleton_self _, rfl, sampleRow.fund sampleScene.channelPoint,
    List.mem_singleton_self _, rfl, samplePart 48000000 49000000,
    List.mem_cons_of_mem _ (List.mem_singleton_self _),
    ⟨by decide, by decide, by decide, by decide⟩, by decide, by decide⟩
  intro call member
  obtain rfl := List.mem_singleton.mp member
  decide

end Lspd.Interceptor
