import Lspd.Interceptor.Funding

/-! All nodes share one payments table. What the interceptor of a node has written to the
row of a payment stays there until the interceptor of another node writes a channel point
of its own. -/

namespace Lspd.Interceptor

open Lspd.Common Lspd.Lightning Lspd.Postgres Lspd.Process Lspd.Store

variable {sha256 : Bytes → Bytes} {i : Interceptor} {initial : Shared} {group after : SharedCalls}

section tables

variable {payments : Payments} {paymentHash : Bytes} {channelPoint : OutPoint}

theorem Recorded.setFundingTx_of_ne {other : Bytes} {written : OutPoint}
    (recorded : Recorded payments paymentHash channelPoint) (different : paymentHash ≠ other) :
    Recorded (setFundingTx payments other written) paymentHash channelPoint := by
  obtain ⟨row, member, same, funded⟩ := recorded
  have apart : row.paymentHash ≠ other := same ▸ different
  exact ⟨row, Table.mem_modify.mpr ⟨row, member, by simp [apart]⟩, same, funded⟩

theorem Recorded.of_setFundingTx {row : PaymentRow} (member : row ∈ payments.rows)
    (same : row.paymentHash = paymentHash) :
    Recorded (setFundingTx payments paymentHash channelPoint) paymentHash channelPoint := by
  subst same
  exact funded_setFundingTx channelPoint member

theorem Recorded.overwritten {written : OutPoint}
    (recorded : Recorded payments paymentHash channelPoint) :
    Recorded (setFundingTx payments paymentHash written) paymentHash written := by
  obtain ⟨row, member, same, _⟩ := recorded
  exact .of_setFundingTx member same

theorem payments_afterSetFundingTx {world later : World}
    (effect : afterSetFundingTx world paymentHash channelPoint = some later) :
    later.payments = setFundingTx world.payments paymentHash channelPoint := by
  unfold afterSetFundingTx at effect
  split at effect
  · cases effect
    rfl
  · cases effect

end tables

/-- The row of a payment holds this channel point, or one that another node has written to
it since. -/
def Held (shared : Shared) (paymentHash : Bytes) (channelPoint : OutPoint) : Prop :=
  Recorded shared.world.payments paymentHash channelPoint ∨
    ∃ other, (paymentHash, other) ∈ shared.others ∧
      Recorded shared.world.payments paymentHash other

theorem Held.recorded {shared : Shared} {paymentHash : Bytes} {channelPoint : OutPoint}
    (held : Held shared paymentHash channelPoint) :
    ∃ other, Recorded shared.world.payments paymentHash other := by
  rcases held with own | ⟨other, _, recorded⟩
  · exact ⟨channelPoint, own⟩
  · exact ⟨other, recorded⟩

theorem Held.intrudes {shared later : Shared} {paymentHash : Bytes} {channelPoint : OutPoint}
    (held : Held shared paymentHash channelPoint) (intrudes : Intrudes shared later) :
    Held later paymentHash channelPoint := by
  cases intrudes with
  | rest world interferes =>
    have grow : Grow shared.world.payments world.payments := by
      cases interferes with
      | registers registration payments inserted => exact grow_registerPayment inserted
      | syncs channels => exact .refl _
    exact held.imp (·.grow grow) fun ⟨other, member, recorded⟩ => ⟨other, member, recorded.grow grow⟩
  | funds hash written world effect =>
    have payments := payments_afterSetFundingTx effect
    by_cases own : paymentHash = hash
    · subst own
      obtain ⟨_, recorded⟩ := held.recorded
      refine .inr ⟨written, List.mem_append_right _ (List.mem_singleton_self _), ?_⟩
      rw [payments]
      exact recorded.overwritten
    · unfold Held
      rw [payments]
      exact held.imp (·.setFundingTx_of_ne own) fun ⟨other, member, recorded⟩ =>
        ⟨other, List.mem_append_left _ member, recorded.setFundingTx_of_ne own⟩
  | adds htlc => exact held

/-- The row an execution was answered from, as it was then. Its registration is still there. -/
structure Enrolled (sha256 : Bytes → Bytes) (payments : Payments) (hash : Bytes)
    (info : PaymentInfo) (row : PaymentRow) : Prop where
  found : row.Matches sha256 hash
  info_eq : row.info = .value info
  kept : ∃ now ∈ payments.rows, now.registration = row.registration

/-- The execution has written a channel point to the row of its payment. -/
def Wrote (call : Call) (channelPoint : OutPoint) : Prop :=
  (call.leader.paymentHash, channelPoint, true) ∈ fundings call.history

/-- What holds in every state: a row that was read is still there, a channel point that was
written is held, and nothing was written for a payment whose execution has found no channel
in its row. -/
structure Standing (sha256 : Bytes → Bytes) (group : SharedCalls) : Prop where
  rows : ∀ call ∈ group.executions, ∀ info, info? call.history = some info →
    info.paymentSecret.isSome →
      ∃ row, Enrolled sha256 group.world.world.payments call.leader.paymentHash info row
  written : ∀ call ∈ group.executions, ∀ channelPoint, Wrote call channelPoint →
    Held group.world call.leader.paymentHash channelPoint
  pending : ∀ call ∈ group.running, Pending call → ∀ other ∈ group.executions,
    other.leader.paymentHash = call.leader.paymentHash → ∀ channelPoint, ¬ Wrote other channelPoint

section steps

/-- A call changes nothing of the payments, or it is `SetFundingTx`. -/
theorem payments_of_respond {shared later : Shared} {op : Op} {reply : Reply op}
    (responds : (sharedService sha256 i).respond shared op reply later) :
    later.world.payments = shared.world.payments ∨
      ∃ hash channelPoint, op = .setFundingTx hash channelPoint ∧
        later.world.payments = setFundingTx shared.world.payments hash channelPoint :=
  respond_payments responds.1

/-- No step takes a registration away. -/
theorem row_of_effect (effect : (sharedService sha256 i).Effect group after) {row : PaymentRow}
    (member : row ∈ group.world.world.payments.rows) :
    ∃ now ∈ after.world.world.payments.rows, now.registration = row.registration := by
  have written (hash : Bytes) (channelPoint : OutPoint) (payments : Payments)
      (same : payments = setFundingTx group.world.world.payments hash channelPoint) :
      ∃ now ∈ payments.rows, now.registration = row.registration := by
    subst same
    refine ⟨_, Table.mem_modify.mpr ⟨row, member, rfl⟩, ?_⟩
    split <;> rfl
  cases effect with
  | quiet fresh world empty executions running =>
    rw [world]
    exact ⟨row, member, rfl⟩
  | outside interferes finished running =>
    generalize after.world = later at interferes
    cases interferes with
    | rest world interferes =>
      cases interferes with
      | registers registration payments inserted =>
        obtain ⟨now, present, grows⟩ := grow_registerPayment inserted row member
        exact ⟨now, present, grows.registration⟩
      | syncs channels => exact ⟨row, member, rfl⟩
    | funds hash channelPoint world effect =>
      exact written hash channelPoint _ (payments_afterSetFundingTx effect)
    | adds htlc => exact ⟨row, member, rfl⟩
  | event before later leader history happened responds finished running extended =>
    rcases payments_of_respond responds with same | ⟨hash, channelPoint, _, same⟩
    · rw [same]
      exact ⟨row, member, rfl⟩
    · exact written hash channelPoint _ same

theorem Standing.step_rows (standing : Standing sha256 group)
    (effect : (sharedService sha256 i).Effect group after)
    (obeyed : ∀ call ∈ after.executions, (contract i call.leader).Obeyed call.history) :
    ∀ call ∈ after.executions, ∀ info, info? call.history = some info →
      info.paymentSecret.isSome →
        ∃ row, Enrolled sha256 after.world.world.payments call.leader.paymentHash info row := by
  intro call member info read registered
  have still (old : Call) (there : old ∈ group.executions) (known : info? old.history = some info) :
      ∃ row, Enrolled sha256 after.world.world.payments old.leader.paymentHash info row := by
    obtain ⟨row, found, info_eq, before, present, same⟩ :=
      standing.rows old there info known registered
    obtain ⟨now, later, kept⟩ := row_of_effect effect present
    exact ⟨row, found, info_eq, now, later, kept.trans same⟩
  rcases effect.origin member with old | begun | ⟨history, event, extends_, running, responds⟩
  · exact still call old read
  · simp [begun, info?] at read
  · have keeps := obeyed call member
    rw [extends_] at read keeps
    rcases info?_snoc read with earlier | ⟨rfl, hash, rfl⟩
    · exact still ⟨call.leader, history⟩ (group.running_subset running) earlier
    · obtain ⟨_, same⟩ := allowed_of_obeyed_snoc keeps
      obtain ⟨⟨unchanged, reply⟩, _⟩ := responds
      obtain ⟨row, present, found, info_eq⟩ := reply.registered registered
      rw [unchanged]
      exact ⟨row, by rwa [← same], info_eq, row, present, rfl⟩

/-- An execution that is about to write finds a row to write to. -/
theorem Standing.own_row (standing : Standing sha256 group) {call : Call}
    (member : call ∈ group.executions) (pending : Pending call) :
    ∃ row ∈ group.world.world.payments.rows, row.paymentHash = call.leader.paymentHash := by
  obtain ⟨info, read, registered, own, _, _⟩ := pending
  obtain ⟨row, _, info_eq, now, present, same⟩ := standing.rows call member info read registered
  have hash := congrArg PaymentRow.paymentHash same
  exact ⟨now, present, (hash.trans (PaymentRow.info_fields info_eq).1.symm).trans own⟩

/-- The executions after a call are those before it, but for the one that made it. -/
theorem mem_of_event {before later : List Call} {leader : InterceptRequest} {history : Trail}
    {happened : Event Op Reply} {call : Call} (finished : after.finished = group.finished)
    (running : group.running = before ++ ⟨leader, history⟩ :: later)
    (extended : after.running = before ++ ⟨leader, history ++ [happened]⟩ :: later)
    (member : call ∈ after.executions) :
    call = ⟨leader, history ++ [happened]⟩ ∨ call ∈ group.executions := by
  rw [Group.executions, finished, extended] at member
  simp only [Group.executions, running, List.mem_append, List.mem_cons] at member ⊢
  tauto

theorem fundings_other {op : Op} {reply : Reply op}
    (other : ∀ hash channelPoint, op ≠ .setFundingTx hash channelPoint) :
    fundings [⟨op, reply⟩] = [] := by
  cases op with
  | setFundingTx hash channelPoint => exact absurd rfl (other hash channelPoint)
  | _ => rfl

/-- A call of another kind changes neither the channel points nor the writes of others. -/
theorem held_other {shared later : Shared} {op : Op} {reply : Reply op} {hash : Bytes}
    {channelPoint : OutPoint} (responds : (sharedService sha256 i).respond shared op reply later)
    (other : ∀ hash channelPoint, op ≠ .setFundingTx hash channelPoint)
    (held : Held shared hash channelPoint) : Held later hash channelPoint := by
  have others : later.others = shared.others := by
    rw [responds.2]
    cases op with
    | setFundingTx hash channelPoint => exact absurd rfl (other hash channelPoint)
    | _ => rfl
  rcases payments_of_respond responds with same | ⟨_, _, asked, _⟩
  · unfold Held
    rwa [others, same]
  · exact absurd asked (other _ _)

/-- `SetFundingTx` for one payment leaves the others as they are. -/
theorem held_of_ne {shared later : Shared} {own hash : Bytes} {channelPoint written : OutPoint}
    {reply : Reply (.setFundingTx own written)}
    (responds : (sharedService sha256 i).respond shared (.setFundingTx own written) reply later)
    (different : hash ≠ own) (held : Held shared hash channelPoint) :
    Held later hash channelPoint := by
  have member {other : OutPoint} (before : (hash, other) ∈ shared.others) :
      (hash, other) ∈ later.others := by
    rw [responds.2]
    exact List.mem_filter.mpr ⟨before, by simpa using different⟩
  have recorded {point : OutPoint} (before : Recorded shared.world.payments hash point) :
      Recorded later.world.payments hash point := by
    rcases payments_of_respond responds with same | ⟨_, _, ⟨⟩, same⟩
    · rwa [same]
    · rw [same]
      exact before.setFundingTx_of_ne different
  exact held.imp recorded fun ⟨other, before, kept⟩ => ⟨other, member before, recorded kept⟩

/-- A `SetFundingTx` that reports success has put its channel point into the row. -/
theorem recorded_of_success {shared later : Shared} {hash : Bytes} {channelPoint : OutPoint}
    {reply : Reply (.setFundingTx hash channelPoint)} {row : PaymentRow}
    (responds : (sharedService sha256 i).respond shared (.setFundingTx hash channelPoint) reply later)
    (succeeded : reply.isOk = true) (member : row ∈ shared.world.payments.rows)
    (own : row.paymentHash = hash) : Recorded later.world.payments hash channelPoint := by
  rcases responds.1 with effect | ⟨_, failed⟩
  · rw [payments_afterSetFundingTx effect]
    exact .of_setFundingTx member own
  · rw [failed] at succeeded
    cases succeeded

section event

variable {leader : InterceptRequest} {history : Trail} {op : Op} {reply : Reply op}
  {shared : Shared} {channelPoint : OutPoint}

/-- What executions have written is held after the next call of one that runs. -/
theorem Standing.held_of_call (standing : Standing sha256 group)
    (aloft : (⟨leader, history⟩ : Call) ∈ group.running)
    (responds : (sharedService sha256 i).respond group.world op reply shared)
    (moved : (contract i leader).Obeyed (history ++ [⟨op, reply⟩])) {call : Call}
    (old : call ∈ group.executions) (wrote : Wrote call channelPoint) :
    Held shared call.leader.paymentHash channelPoint := by
  have held := standing.written call old channelPoint wrote
  by_cases funds : ∃ hash point, op = .setFundingTx hash point
  · obtain ⟨hash, point, rfl⟩ := funds
    obtain ⟨rfl, pending⟩ := pending_of_allowed (obeyed_of_snoc moved) (allowed_of_obeyed_snoc moved)
    by_cases same : call.leader.paymentHash = leader.paymentHash
    · exact absurd wrote (standing.pending _ aloft pending call old same channelPoint)
    · exact held_of_ne responds same held
  · exact held_other responds (fun hash point same => funds ⟨hash, point, same⟩) held

/-- The same of the execution that makes the call: if it is `SetFundingTx`, nothing was
written before. -/
theorem Standing.held_of_own_call (standing : Standing sha256 group)
    (aloft : (⟨leader, history⟩ : Call) ∈ group.running)
    (responds : (sharedService sha256 i).respond group.world op reply shared)
    (moved : (contract i leader).Obeyed (history ++ [⟨op, reply⟩]))
    (wrote : Wrote ⟨leader, history ++ [⟨op, reply⟩]⟩ channelPoint) :
    Held shared leader.paymentHash channelPoint := by
  have old := group.running_subset aloft
  rw [Wrote, fundings_append] at wrote
  by_cases funds : ∃ hash point, op = .setFundingTx hash point
  · obtain ⟨hash, point, rfl⟩ := funds
    obtain ⟨rfl, pending⟩ := pending_of_allowed (obeyed_of_snoc moved) (allowed_of_obeyed_snoc moved)
    obtain ⟨row, present, own⟩ := standing.own_row old pending
    obtain ⟨_, _, _, _, _, unwritten⟩ := pending
    rw [unwritten] at wrote
    simp only [fundings_cons, funding?, fundings_nil, Option.toList_some, List.append_nil,
      List.nil_append, List.mem_singleton, Prod.mk.injEq, true_and] at wrote
    obtain ⟨rfl, succeeded⟩ := wrote
    exact .inl (recorded_of_success responds succeeded.symm present own)
  · rw [fundings_other fun hash point same => funds ⟨hash, point, same⟩, List.append_nil] at wrote
    exact standing.held_of_call aloft responds moved old wrote

/-- An execution that has found no channel in its row, with what it has just read or
earlier, finds nothing written for its payment. -/
theorem Standing.unwritten_of_pending (standing : Standing sha256 group)
    (aloft : (⟨leader, history⟩ : Call) ∈ group.running)
    (responds : (sharedService sha256 i).respond group.world op reply shared)
    (pending : Pending ⟨leader, history ++ [⟨op, reply⟩]⟩) {other : Call}
    (there : other ∈ group.executions) (same : other.leader.paymentHash = leader.paymentHash) :
    ¬ Wrote other channelPoint := by
  intro wrote
  obtain ⟨info, read, registered, own, unfunded, unwritten⟩ := pending
  have before : fundings history = [] :=
    (List.append_eq_nil_iff.mp ((fundings_append _ _).symm.trans unwritten)).1
  rcases info?_snoc read with old | ⟨rfl, hash, event⟩
  · exact standing.pending ⟨leader, history⟩ aloft
      ⟨info, old, registered, own, unfunded, before⟩ other there same channelPoint wrote
  · -- the row that was just read has no channel, but a written one would be held in it
    cases event
    obtain ⟨⟨_, reply⟩, _⟩ := responds
    obtain ⟨found, present, _, info_eq⟩ := reply.registered registered
    obtain ⟨hash_eq, _, _, _, _, channel_eq, _⟩ := PaymentRow.info_fields info_eq
    obtain ⟨_, row, stored, named, funded⟩ :=
      (standing.written other there channelPoint wrote).recorded
    have one : row = found := Table.eq_of_key_eq stored present (by rw [named, same, ← hash_eq, own])
    rw [one, ← channel_eq, unfunded] at funded
    cases funded

end event

theorem Standing.step_written (standing : Standing sha256 group)
    (effect : (sharedService sha256 i).Effect group after)
    (obeyed : ∀ call ∈ after.executions, (contract i call.leader).Obeyed call.history) :
    ∀ call ∈ after.executions, ∀ channelPoint, Wrote call channelPoint →
      Held after.world call.leader.paymentHash channelPoint := by
  intro call member channelPoint wrote
  cases effect with
  | quiet fresh world empty executions running =>
    rw [world]
    rcases List.mem_append.mp (executions.subset member) with begun | old
    · simp [Wrote, empty call begun] at wrote
    · exact standing.written call old channelPoint wrote
  | outside interferes finished running =>
    have old : call ∈ group.executions := by
      rwa [Group.executions, ← finished, ← running]
    exact (standing.written call old channelPoint wrote).intrudes interferes
  | event before later leader history happened responds finished running extended =>
    have aloft : (⟨leader, history⟩ : Call) ∈ group.running := by simp [running]
    have moved : (contract i leader).Obeyed (history ++ [happened]) :=
      obeyed ⟨leader, history ++ [happened]⟩ (after.running_subset (by simp [extended]))
    rcases mem_of_event finished running extended member with rfl | old
    · exact standing.held_of_own_call aloft responds moved wrote
    · exact standing.held_of_call aloft responds moved old wrote

theorem Standing.step_pending (standing : Standing sha256 group)
    (effect : (sharedService sha256 i).Effect group after)
    (distinct : group.running.Pairwise
      (fun one two => one.leader.paymentHash ≠ two.leader.paymentHash)) :
    ∀ call ∈ after.running, Pending call → ∀ other ∈ after.executions,
      other.leader.paymentHash = call.leader.paymentHash →
        ∀ channelPoint, ¬ Wrote other channelPoint := by
  intro call member pending other among same channelPoint wrote
  cases effect with
  | quiet fresh world empty executions running =>
    rcases List.mem_append.mp (executions.subset among) with begun | there
    · simp [Wrote, empty other begun] at wrote
    · rcases List.mem_append.mp (running member) with begun | old
      · obtain ⟨info, read, _⟩ := pending
        simp [empty call begun, info?] at read
      · exact standing.pending call old pending other there same channelPoint wrote
  | outside interferes finished running =>
    rw [running] at member
    rw [Group.executions, finished, running] at among
    exact standing.pending call member pending other among same channelPoint wrote
  | event before later leader history happened responds finished running extended =>
    have aloft : (⟨leader, history⟩ : Call) ∈ group.running := by simp [running]
    have others := mem_of_event finished running extended among
    rw [extended, List.mem_append, List.mem_cons] at member
    rw [running, List.pairwise_append, List.pairwise_cons] at distinct
    obtain ⟨_, ⟨afterwards, _⟩, earlier⟩ := distinct
    -- an execution that did not move works under another hash than the one that did
    have unmoved (old : call ∈ group.running)
        (different : call.leader.paymentHash ≠ leader.paymentHash) : False := by
      rcases others with rfl | there
      · exact different same.symm
      · exact standing.pending call old pending other there same channelPoint wrote
    rcases member with first | rfl | last
    · exact unmoved (by simp [running, first]) (earlier call first ⟨leader, history⟩ (by simp))
    · rcases others with rfl | there
      · obtain ⟨_, _, _, _, _, unwritten⟩ := pending
        rw [Wrote, unwritten] at wrote
        cases wrote
      · exact standing.unwritten_of_pending aloft responds pending there same wrote
    · exact unmoved (by simp [running, last]) (afterwards call last).symm

theorem standing_of_reachable (reachable : (sharedService sha256 i).Reachable initial group) :
    Standing sha256 group := by
  induction reachable with
  | refl =>
    exact ⟨by simp [Service.idle, Group.executions, Group.finished, Group.running],
      by simp [Service.idle, Group.executions, Group.finished, Group.running],
      by simp [Service.idle, Group.running]⟩
  | @tail group after reachable step standing =>
    have obeyed := (Service.Reachable.sound (intercept_follows i) (reachable.tail step)).obeyed
    have distinct := (Service.Reachable.running_distinct reachable).imp
      (fun different same => different (congrArg encodeToString same))
    exact ⟨standing.step_rows step.effect obeyed, standing.step_written step.effect obeyed,
      standing.step_pending step.effect distinct⟩

end steps

/-- Whoever asks for the payment finds the recorded channel. -/
theorem Recorded.reused {payments : Payments} {paymentHash : Bytes} {channelPoint : OutPoint}
    {info : PaymentInfo} (recorded : Recorded payments paymentHash channelPoint)
    (reply : PaymentInfoReply sha256 payments paymentHash (.value info))
    (registered : info.paymentSecret.isSome) (own : info.paymentHash = paymentHash) :
    info.channelPoint = some channelPoint := by
  obtain ⟨row, member, same, funded⟩ := recorded
  obtain ⟨found, present, _, info_eq⟩ := reply.registered registered
  obtain ⟨hash, _, _, _, _, channel, _⟩ := PaymentRow.info_fields info_eq
  have one : found = row := Table.eq_of_key_eq present member (by rw [same, ← own, hash])
  rw [channel, one, funded]

/-- A channel opened by a call is recorded when the call returns, and found by whoever asks,
until the interceptor of another node writes a channel point of its own. Otherwise the write
of the channel point failed; then the htlc is failed. -/
theorem opened_recorded (reachable : (sharedService sha256 i).Reachable initial group) :
    ∀ landing ∈ group.landings, ∀ channelPoint ∈ opened landing.history,
      (Recorded group.world.world.payments landing.leader.paymentHash channelPoint ∧
        ∀ info, PaymentInfoReply sha256 group.world.world.payments landing.leader.paymentHash
          (.value info) → info.paymentSecret.isSome →
          info.paymentHash = landing.leader.paymentHash → info.channelPoint = some channelPoint) ∨
      (∃ other, (landing.leader.paymentHash, other) ∈ group.world.others ∧
        Recorded group.world.world.payments landing.leader.paymentHash other) ∨
      (landing.leader.paymentHash, channelPoint, false) ∈ fundings landing.history ∧
        landing.result = .failWithCode failureTemporaryChannelFailure := by
  intro landing member channelPoint opening
  have sound := Service.Reachable.sound (intercept_follows i) reachable
  rcases (sound.landings landing member).2.funded channelPoint opening with
    written | ⟨failed, result⟩
  · have held := (standing_of_reachable reachable).written landing.execution
      (group.finished_subset (List.mem_map_of_mem member)) channelPoint
      (by simp [Wrote, Landing.execution, written])
    rcases held with recorded | overwritten
    · exact .inl ⟨recorded, fun info reply registered own => recorded.reused reply registered own⟩
    · exact .inr (.inl overwritten)
  · exact .inr (.inr ⟨by simp [failed], result⟩)

/-- The channel of the sample payment is opened and recorded. -/
theorem opened_recorded_sample :
    ∃ group, (sharedService sampleSha256 sampleInterceptor).Reachable ⟨sampleWorld, []⟩ group ∧
      group.landings.length = 1 ∧
      Recorded group.world.world.payments sampleHash sampleScene.channelPoint := by
  have alone := sample_serve sampleScene .refl (samplePart 50000000 51000000) [] (by simp)
    (sampleResult 49000000) sampleRun_finishes
  have reachable := alone.inWorld covers_service
  refine ⟨_, reachable, rfl, ?_⟩
  rcases opened_recorded reachable _ (List.mem_singleton_self _) sampleScene.channelPoint
    (List.mem_singleton_self _) with ⟨recorded, _⟩ | ⟨_, none, _⟩ | ⟨_, failed⟩
  · exact recorded
  · cases none
  · cases failed

/-- When `SetFundingTx` fails the channel is open, the call has returned and the
row knows nothing of the channel. -/
theorem opened_unrecorded :
    ∃ group : Calls, (service sampleSha256 sampleInterceptor).Reachable sampleWorld group ∧
      ∃ landing ∈ group.landings, ∃ channelPoint ∈ opened landing.history,
        ¬ Recorded group.world.payments landing.leader.paymentHash channelPoint := by
  refine ⟨_, sample_serve { sampleScene with fundingError := some "connection refused" } .refl
    (samplePart 50000000 51000000) [] (by simp)
    (.failWithCode failureTemporaryChannelFailure) rfl, _, List.mem_singleton_self _,
    sampleScene.channelPoint, List.mem_singleton_self _, ?_⟩
  rintro ⟨row, member, _, funded⟩
  obtain rfl : row = sampleRow := List.mem_singleton.mp member
  cases funded

end Lspd.Interceptor
