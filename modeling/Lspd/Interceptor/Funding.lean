import Lspd.Interceptor.Provenance

/-! One channel per payment, when one node serves them. What is opened is written
down before the call returns, what is written down is never overwritten, and so
every result for a payment names the same channel. -/

namespace Lspd.Interceptor

open Lspd.Common Lspd.Lightning Lspd.Postgres Lspd.Process Lspd.Store

variable {sha256 : Bytes → Bytes} {i : Interceptor} {initial : World} {group after : Calls}

/-- The row of a payment holds a channel point. -/
def Recorded (payments : Payments) (paymentHash : Bytes) (channelPoint : OutPoint) : Prop :=
  ∃ row ∈ payments.rows, row.paymentHash = paymentHash ∧ row.channelPoint = some channelPoint

/-- The execution works on a payment: it was called for its hash, or it was
called with another one, a probe's, and answered from its row. -/
def Concerns (paymentHash : Bytes) (call : Call) : Prop :=
  call.leader.paymentHash = paymentHash ∨
    (info? call.history).map PaymentInfo.paymentHash = some paymentHash

instance (paymentHash : Bytes) (call : Call) : Decidable (Concerns paymentHash call) :=
  inferInstanceAs (Decidable (_ ∨ _))

/-- The channels opened for a payment by all executions so far. -/
def openedFor (paymentHash : Bytes) (group : Calls) : List OutPoint :=
  group.executions.flatMap fun call =>
    if Concerns paymentHash call then opened call.history else []

def FundingSucceeds (group : Calls) : Prop :=
  ∀ call ∈ group.executions, ∀ written ∈ fundings call.history, written.2.2 = true

/-- No registered hash is the probing hash of another registered one. -/
def ProbesUnregistered (sha256 : Bytes → Bytes) (payments : Payments) : Prop :=
  ∀ one ∈ payments.rows, ∀ two ∈ payments.rows,
    one.paymentHash = probingHash sha256 two.paymentHash → one.paymentHash = two.paymentHash

/-- Probes open nothing, so an opening belongs to the hash of its caller. -/
theorem opened_if_concerns (paymentHash : Bytes) {call : Call}
    (obeyed : (contract i call.leader).Obeyed call.history) :
    (if Concerns paymentHash call then opened call.history else []) =
      if call.leader.paymentHash = paymentHash then opened call.history else [] := by
  by_cases none : opened call.history = []
  · simp [none]
  · obtain ⟨channelPoint, member⟩ := List.exists_mem_of_ne_nil _ none
    obtain ⟨info, vetted, unfunded⟩ := justified_of_opened obeyed member
    simp [Concerns, vetted.read, vetted.probe unfunded]

theorem openedFor_eq (paymentHash : Bytes)
    (obeyed : ∀ call ∈ group.executions, (contract i call.leader).Obeyed call.history) :
    openedFor paymentHash group = group.executions.flatMap fun call =>
      if call.leader.paymentHash = paymentHash then opened call.history else [] :=
  List.flatMap_congr fun call member => opened_if_concerns paymentHash (obeyed call member)

/-- What shows that a channel was opened for a payment: its row, or the
execution that opened it and is about to write it down. -/
def Covered (paymentHash : Bytes) (group : Calls) : Prop :=
  (∃ channelPoint, Recorded group.world.payments paymentHash channelPoint) ∨
    ∃ call ∈ group.running, call.leader.paymentHash = paymentHash ∧
      opened call.history ≠ [] ∧ fundings call.history = []

structure OpenedOnce (paymentHash : Bytes) (group : Calls) : Prop where
  once : (openedFor paymentHash group).length ≤ 1
  covered : openedFor paymentHash group ≠ [] → Covered paymentHash group

theorem Recorded.grow {payments later : Payments} {paymentHash : Bytes} {channelPoint : OutPoint}
    (recorded : Recorded payments paymentHash channelPoint) (grow : Grow payments later) :
    Recorded later paymentHash channelPoint := by
  obtain ⟨row, member, same, funded⟩ := recorded
  obtain ⟨now, present, grows⟩ := grow row member
  exact ⟨now, present, grows.paymentHash.trans same, grows.channel _ funded⟩

theorem FundingSucceeds.before (effect : (service sha256 i).Effect group after)
    (succeeds : FundingSucceeds after) : FundingSucceeds group :=
  effect.forall_before (fun call => ∀ written ∈ fundings call.history, written.2.2 = true)
    (fun _ _ _ later written member => later written (by simp [member])) succeeds

/-- One more call adds at most the channel it opened. -/
theorem openedFor_event {before later : List Call} {leader : InterceptRequest} {history : Trail}
    {happened : Event Op Reply} (paymentHash : Bytes)
    (obeyed : ∀ call ∈ group.executions, (contract i call.leader).Obeyed call.history)
    (obeyed' : ∀ call ∈ after.executions, (contract i call.leader).Obeyed call.history)
    (finished : after.finished = group.finished)
    (running : group.running = before ++ ⟨leader, history⟩ :: later)
    (extended : after.running = before ++ ⟨leader, history ++ [happened]⟩ :: later) :
    (openedFor paymentHash after).Perm
      ((if leader.paymentHash = paymentHash then opened [happened] else []) ++
        openedFor paymentHash group) := by
  rw [openedFor_eq paymentHash obeyed, openedFor_eq paymentHash obeyed']
  refine Service.flatMap_event ?_ finished running extended
  dsimp only
  split <;> simp

/-- The evidence of an opening is never lost: a landing call has written its
channel down, and a successful write shows in the row. -/
theorem Covered.step {paymentHash : Bytes} (covered : Covered paymentHash group)
    (reachable : (service sha256 i).Reachable initial group)
    (step : (service sha256 i).Step group after) (succeeds : FundingSucceeds after) :
    Covered paymentHash after := by
  have reached : (service sha256 i).Reachable initial after := reachable.tail step
  have sound := Service.Reachable.sound (intercept_follows i) reached
  have consistent := consistent_of_reachable reached
  rcases covered with ⟨channelPoint, recorded⟩ | ⟨call, flying, own, opening, unwritten⟩
  · exact .inl ⟨channelPoint, recorded.grow
      ((consistent_of_reachable reachable).grow step.effect sound.obeyed)⟩
  · cases step.effect with
    | quiet fresh world empty executions running =>
      have still : call ∈ after.executions :=
        executions.symm.subset (List.mem_append_right _ (group.running_subset flying))
      rcases List.mem_append.mp still with landed | aloft
      · obtain ⟨landing, member, rfl⟩ := List.mem_map.mp landed
        obtain ⟨channelPoint, opened⟩ := List.exists_mem_of_ne_nil _ opening
        have written := (sound.landings landing member).2.funded channelPoint opened
        simp only [Landing.execution] at unwritten
        simp [unwritten] at written
      · exact .inr ⟨call, aloft, own, opening, unwritten⟩
    | outside interferes finished running =>
      exact .inr ⟨call, running ▸ flying, own, opening, unwritten⟩
    | event before later leader history happened responds finished running extended =>
      rw [running, List.mem_append, List.mem_cons] at flying
      rcases flying with first | rfl | last
      · exact .inr ⟨call, by simp [extended, first], own, opening, unwritten⟩
      · by_cases silent : fundings [happened] = []
        · refine .inr ⟨⟨leader, history ++ [happened]⟩, by simp [extended], own, ?_, ?_⟩
          · simp [opening]
          · rw [fundings_append, silent, unwritten, List.append_nil]
        · have member : (⟨leader, history ++ [happened]⟩ : Call) ∈ after.executions :=
            after.running_subset (by simp [extended])
          obtain ⟨⟨hash, channelPoint, flag⟩, new⟩ := List.exists_mem_of_ne_nil _ silent
          have written : (hash, channelPoint, flag) ∈ fundings (history ++ [happened]) := by
            rw [fundings_append]
            exact List.mem_append_right _ new
          obtain ⟨rfl, _⟩ := opened_of_funding (sound.obeyed _ member) written
          have flag_eq : flag = true := succeeds _ member _ written
          exact .inl ⟨channelPoint, own ▸ consistent.written _ member channelPoint (flag_eq ▸ written)⟩
      · exact .inr ⟨call, by simp [extended, last], own, opening, unwritten⟩

theorem OpenedOnce.of_perm {paymentHash : Bytes} (once : OpenedOnce paymentHash group)
    (perm : (openedFor paymentHash after).Perm (openedFor paymentHash group))
    (kept : Covered paymentHash group → Covered paymentHash after) :
    OpenedOnce paymentHash after where
  once := perm.length_eq ▸ once.once
  covered opening := kept (once.covered fun none => opening (by simpa [none] using perm))

/-- Whoever opens a channel for a payment is the first to do so. -/
theorem OpenedOnce.first {leader : InterceptRequest} {history : Trail} {request : OpenChannelRequest}
    (once : OpenedOnce leader.paymentHash group)
    (reachable : (service sha256 i).Reachable initial group)
    (flying : ⟨leader, history⟩ ∈ group.running)
    (allowed : (contract i leader).allowed history (.openChannel request)) :
    openedFor leader.paymentHash group = [] ∧ opened history = [] ∧ fundings history = [] := by
  obtain ⟨unasked, info, params, validUntil, now, justified⟩ := allowed
  have none : opened history = [] := opened_eq_nil unasked
  have obeyed := (Service.Reachable.sound (intercept_follows i) reachable).obeyed _
    (group.running_subset flying)
  have unwritten := fundings_eq_nil obeyed none
  refine ⟨?_, none, unwritten⟩
  by_contra opening
  rcases once.covered opening with ⟨channelPoint, row, member, own, funded⟩ |
    ⟨call, aloft, own, other, _⟩
  · have pending : Pending ⟨leader, history⟩ := ⟨info, justified.vetted.read,
      justified.vetted.registered, justified.vetted.probe justified.unfunded, justified.unfunded,
      unwritten⟩
    have unfunded := (consistent_of_reachable reachable).pending _ flying pending row member own
    simp [unfunded] at funded
  · have same := Service.Reachable.running_unique reachable aloft flying
      (congrArg encodeToString own)
    simp [same, none] at other

theorem OpenedOnce.step {paymentHash : Bytes} (once : OpenedOnce paymentHash group)
    (reachable : (service sha256 i).Reachable initial group)
    (step : (service sha256 i).Step group after) (succeeds : FundingSucceeds after) :
    OpenedOnce paymentHash after := by
  have obeyed := (Service.Reachable.sound (intercept_follows i) reachable).obeyed
  have obeyed' := (Service.Reachable.sound (intercept_follows i) (reachable.tail step)).obeyed
  have kept : Covered paymentHash group → Covered paymentHash after :=
    fun covered => covered.step reachable step succeeds
  cases step.effect with
  | quiet fresh world empty executions running =>
    refine once.of_perm ?_ kept
    exact Service.flatMap_quiet (fun call member => by simp [empty call member]) executions
  | outside interferes finished running =>
    exact once.of_perm (.of_eq (Service.flatMap_outside finished running)) kept
  | event before later leader history happened responds finished running extended =>
    have perm := openedFor_event paymentHash obeyed obeyed' finished running extended
    by_cases opens : leader.paymentHash = paymentHash ∧ opened [happened] ≠ []
    · obtain ⟨rfl, some⟩ := opens
      have flying : ⟨leader, history⟩ ∈ group.running := by simp [running]
      have allowed := allowed_of_obeyed_snoc (obeyed' ⟨leader, history ++ [happened]⟩
        (after.running_subset (by simp [extended])))
      obtain ⟨op, reply⟩ := happened
      cases op with
      | openChannel request =>
        obtain ⟨channels, unopened, unwritten⟩ := once.first reachable flying allowed
        rw [if_pos rfl, channels, List.append_nil] at perm
        refine ⟨?_, fun _ => .inr ⟨⟨leader, history ++ [⟨.openChannel request, reply⟩]⟩,
          by simp [extended], rfl, by simpa [unopened] using some, by simp [unwritten, funding?]⟩⟩
        rw [perm.length_eq]
        exact List.length_filterMap_le _ _
      | _ => simp [opened?] at some
    · have nothing : (if leader.paymentHash = paymentHash then opened [happened] else []) = [] := by
        split
        · rename_i own
          by_contra some
          exact opens ⟨own, some⟩
        · rfl
      rw [nothing, List.nil_append] at perm
      exact once.of_perm perm kept

theorem openedOnce_of_reachable (paymentHash : Bytes)
    (reachable : (service sha256 i).Reachable initial group) (succeeds : FundingSucceeds group) :
    OpenedOnce paymentHash group := by
  induction reachable with
  | refl =>
    have none : openedFor paymentHash (Service.idle initial) = [] := rfl
    exact ⟨by simp [none], fun opening => absurd none opening⟩
  | tail reachable step ih => exact (ih (succeeds.before step.effect)).step reachable step succeeds

/-- A forwarding result for a payment repeats what its row holds. -/
theorem result_of_row {landing : Landing InterceptRequest Op Reply InterceptResult}
    {row : PaymentRow} (reachable : (service sha256 i).Reachable initial group)
    (apart : ProbesUnregistered sha256 group.world.payments) (member : landing ∈ group.landings)
    (onion : landing.result.action = .resumeWithOnion) (present : row ∈ group.world.payments.rows)
    (concerns : Concerns row.paymentHash landing.execution) :
    landing.result.channelPoint = row.channelPoint ∧ landing.result.destination = row.destination ∧
      landing.result.paymentSecret = some row.paymentSecret ∧
      landing.result.totalAmountMsat = row.outgoingAmountMsat.toUInt64 := by
  have sound := Service.Reachable.sound (intercept_follows i) reachable
  have consistent := consistent_of_reachable reachable
  have finished := group.finished_subset (List.mem_map_of_mem member)
  obtain ⟨info, channelPoint, amt, scid, htlc, stored, resumed⟩ :=
    (sound.landings landing member).2.resumed onion
  obtain ⟨old, answered, same⟩ := consistent.answered finished resumed.vetted.read
    resumed.vetted.registered
  obtain ⟨now, alive, grows⟩ := answered.lives
  obtain ⟨hash_eq, _, _, _, _, channel, _⟩ := PaymentRow.info_fields same
  -- the row that answered is the row of the payment
  have hash : now.paymentHash = row.paymentHash := by
    rcases concerns with called | read
    · rcases answered.found with own | probe
      · exact grows.paymentHash.trans (own.trans called)
      · refine (apart row present now alive ?_).symm
        rw [grows.paymentHash, probe, called]
    · rw [Landing.execution, resumed.vetted.read] at read
      rw [grows.paymentHash, ← hash_eq]
      exact Option.some.inj read
  obtain rfl : now = row := Table.eq_of_key_eq alive present hash
  have made : Provenance landing.execution landing.result old := Resumed.provenance resumed same
  refine ⟨?_, ?_, ?_, ?_⟩
  · rw [resumed.result_eq, onionResult]
    rcases resumed.usable with ⟨recorded, _⟩ | ⟨unfunded, _, written, _⟩
    · exact (grows.channel channelPoint (channel ▸ recorded)).symm
    · obtain ⟨other, there, own, funded⟩ := consistent.written landing.execution finished channelPoint
        (by simp [Landing.execution, written])
      have one : other = now := Table.eq_of_key_eq there alive (by
        rw [own, grows.paymentHash, ← hash_eq, resumed.vetted.probe unfunded]
        rfl)
      rw [← one, funded]
  · exact made.destination.trans (grows.column PaymentRow.destination fun _ => rfl).symm
  · rw [made.paymentSecret, grows.column PaymentRow.paymentSecret fun _ => rfl]
  · rw [made.totalAmountMsat, grows.column PaymentRow.outgoingAmountMsat fun _ => rfl]

/-- In every run in which the funding writes succeed, at most one channel is
opened for a registered payment, and all its forwarding results agree. -/
theorem one_channel_per_payment (reachable : (service sha256 i).Reachable initial group)
    (succeeds : FundingSucceeds group)
    (apart : ProbesUnregistered sha256 group.world.payments) :
    ∀ row ∈ group.world.payments.rows,
      (openedFor row.paymentHash group).length ≤ 1 ∧
      ∀ one ∈ group.landings, ∀ two ∈ group.landings,
        Concerns row.paymentHash one.execution → Concerns row.paymentHash two.execution →
        one.result.action = .resumeWithOnion → two.result.action = .resumeWithOnion →
        one.result.channelPoint = two.result.channelPoint ∧
          one.result.destination = two.result.destination ∧
          one.result.paymentSecret = two.result.paymentSecret ∧
          one.result.totalAmountMsat = two.result.totalAmountMsat := by
  intro row present
  refine ⟨(openedOnce_of_reachable row.paymentHash reachable succeeds).once, ?_⟩
  intro one first two second concerns concerns' onion onion'
  obtain ⟨channel, destination, secret, total⟩ :=
    result_of_row reachable apart first onion present concerns
  obtain ⟨channel', destination', secret', total'⟩ :=
    result_of_row reachable apart second onion' present concerns'
  exact ⟨channel.trans channel'.symm, destination.trans destination'.symm,
    secret.trans secret'.symm, total.trans total'.symm⟩

/-- The second part of the sample payment uses the channel of the first. -/
theorem one_channel_per_payment_sample :
    FundingSucceeds sampleParts ∧ (openedFor sampleHash sampleParts).length ≤ 1 ∧
      (sampleResult 49000000).channelPoint = (sampleResult 47040000).channelPoint := by
  have succeeds : FundingSucceeds sampleParts := by
    intro call member
    rcases List.mem_cons.mp member with rfl | later
    · decide
    · obtain rfl := List.mem_singleton.mp later
      decide
  have apart : ProbesUnregistered sampleSha256 sampleParts.world.payments := by
    intro one first two second _
    rw [List.mem_singleton.mp first, List.mem_singleton.mp second]
  obtain ⟨once, agree⟩ := one_channel_per_payment sampleParts_reachable succeeds apart
    (sampleRow.fund sampleScene.channelPoint) (List.mem_singleton_self _)
  exact ⟨succeeds, once, (agree _ List.mem_cons_self _ (List.mem_cons_of_mem _ List.mem_cons_self)
    (.inl rfl) (.inl rfl) rfl rfl).1⟩

end Lspd.Interceptor
