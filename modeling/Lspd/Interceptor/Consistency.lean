import Lspd.Interceptor.System

/-! How the payments table and the calls of all executions agree, in every
interleaving. The heart of it is `pending`: between reading a row without a
channel and writing one, nobody else gives that row a channel, because nobody
else works under its payment hash. -/

namespace Lspd.Interceptor

open Lspd.Common Lspd.Lightning Lspd.Postgres Lspd.Process Lspd.Store

variable {sha256 : Bytes → Bytes} {i : Interceptor} {initial : World} {group after : Calls}

section trails

variable {req : InterceptRequest} {trail : Trail} {event : Event Op Reply}

theorem allowed_of_obeyed_snoc (obeyed : (contract i req).Obeyed (trail ++ [event])) :
    (contract i req).allowed trail event.1 :=
  obeyed trail event [] rfl

theorem obeyed_of_snoc (obeyed : (contract i req).Obeyed (trail ++ [event])) :
    (contract i req).Obeyed trail := by
  intro earlier other later same
  exact obeyed earlier other (later ++ [event]) (by simp [same])

theorem info?_snoc {info : PaymentInfo} (read : info? (trail ++ [event]) = some info) :
    info? trail = some info ∨
      trail = [] ∧ ∃ hash, event = ⟨.paymentInfo hash, .value info⟩ := by
  cases trail with
  | nil =>
    right
    simp only [info?, List.nil_append, List.head?_cons, Option.bind_some] at read
    split at read
    · cases read
      exact ⟨rfl, _, rfl⟩
    · cases read
  | cons first rest => exact .inl (by simpa [info?] using read)

/-- A channel that was opened was opened under the guards. -/
theorem justified_of_opened {channelPoint : OutPoint} (obeyed : (contract i req).Obeyed trail)
    (member : channelPoint ∈ opened trail) :
    ∃ info, Vetted req info trail ∧ info.channelPoint = none := by
  obtain ⟨⟨op, reply⟩, happened, picked⟩ := List.mem_filterMap.mp member
  obtain ⟨earlier, later, rfl⟩ := List.append_of_mem happened
  unfold opened? at picked
  split at picked
  · rename_i same
    cases same
    obtain ⟨_, info, params, validUntil, now, justified⟩ := obeyed earlier _ later rfl
    exact ⟨info, justified.vetted.extend _, justified.unfunded⟩
  · cases picked

/-- A funding outpoint is written for the caller's hash, after its channel was opened. -/
theorem opened_of_funding {hash : Bytes} {channelPoint : OutPoint} {succeeded : Bool}
    (obeyed : (contract i req).Obeyed trail)
    (member : (hash, channelPoint, succeeded) ∈ fundings trail) :
    hash = req.paymentHash ∧ channelPoint ∈ opened trail := by
  obtain ⟨⟨op, reply⟩, happened, picked⟩ := List.mem_filterMap.mp member
  obtain ⟨earlier, later, rfl⟩ := List.append_of_mem happened
  unfold funding? at picked
  split at picked
  · rename_i same
    cases same
    cases picked
    obtain ⟨own, _, one⟩ := obeyed earlier _ later rfl
    exact ⟨own, by simp [one]⟩
  · cases picked

theorem fundings_eq_nil (obeyed : (contract i req).Obeyed trail) (none : opened trail = []) :
    fundings trail = [] := by
  rw [List.eq_nil_iff_forall_not_mem]
  rintro ⟨hash, channelPoint, succeeded⟩ member
  simpa [none] using (opened_of_funding obeyed member).2

end trails

/-- The row an execution was answered from, as it was then; it still lives. -/
structure ReadFrom (sha256 : Bytes → Bytes) (payments : Payments) (hash : Bytes)
    (info : PaymentInfo) (row : PaymentRow) : Prop where
  found : row.Matches sha256 hash
  info_eq : row.info = .value info
  lives : ∃ now ∈ payments.rows, row.Grows now

theorem ReadFrom.grow {payments later : Payments} {hash : Bytes} {info : PaymentInfo}
    {row : PaymentRow} (read : ReadFrom sha256 payments hash info row)
    (grow : Grow payments later) : ReadFrom sha256 later hash info row := by
  obtain ⟨now, member, grows⟩ := read.lives
  obtain ⟨next, present, further⟩ := grow now member
  exact ⟨read.found, read.info_eq, next, present, grows.trans further⟩

/-- The fields of a registered reply are the columns of the row it was read from. -/
theorem PaymentRow.info_fields {row : PaymentRow} {info : PaymentInfo}
    (same : row.info = .value info) :
    info.paymentHash = row.paymentHash ∧ info.paymentSecret = some row.paymentSecret ∧
      info.destination = row.destination ∧ info.incomingAmountMsat = row.incomingAmountMsat ∧
      info.outgoingAmountMsat = row.outgoingAmountMsat ∧ info.channelPoint = row.channelPoint ∧
      ∃ extended, row.openingFeeParams = .object extended ∧ info.params = some extended.params ∧
        info.token = extended.token := by
  unfold PaymentRow.info at same
  split at same <;> cases same
  rename_i extended column
  exact ⟨rfl, rfl, rfl, rfl, rfl, rfl, extended, column, rfl, rfl⟩

/-- The execution has read its own row without a channel and written none yet. -/
def Pending (call : Call) : Prop :=
  ∃ info, info? call.history = some info ∧ info.paymentSecret.isSome ∧
    info.paymentHash = call.leader.paymentHash ∧ info.channelPoint = none ∧
    fundings call.history = []

structure Consistent (sha256 : Bytes → Bytes) (group : Calls) : Prop where
  reads : ∀ call ∈ group.executions, ∀ info, info? call.history = some info →
    info.paymentSecret.isSome →
      ∃ row, ReadFrom sha256 group.world.payments call.leader.paymentHash info row
  written : ∀ call ∈ group.executions, ∀ channelPoint,
    (call.leader.paymentHash, channelPoint, true) ∈ fundings call.history →
      ∃ row ∈ group.world.payments.rows, row.paymentHash = call.leader.paymentHash ∧
        row.channelPoint = some channelPoint
  pending : ∀ call ∈ group.running, Pending call → ∀ row ∈ group.world.payments.rows,
    row.paymentHash = call.leader.paymentHash → row.channelPoint = none

/-- A call writes nothing to the payments but a funding outpoint. -/
theorem respond_payments {world later : World} {op : Op} {reply : Reply op}
    (responds : Respond sha256 world op reply later) :
    later.payments = world.payments ∨ ∃ hash channelPoint, op = .setFundingTx hash channelPoint ∧
      later.payments = setFundingTx world.payments hash channelPoint := by
  cases op with
  | paymentInfo hash => exact .inl (by rw [responds.1])
  | setFundingTx hash channelPoint =>
    rcases responds with effect | ⟨rfl, _⟩
    · unfold afterSetFundingTx at effect
      split at effect
      · cases effect
        exact .inr ⟨hash, channelPoint, rfl, rfl⟩
      · cases effect
    · exact .inl rfl
  | updateChannels updates =>
    rcases responds with effect | ⟨rfl, _⟩
    · obtain ⟨channels, _, rfl⟩ := Option.map_eq_some_iff.mp effect
      exact .inl rfl
    · exact .inl rfl
  | addOpenChannelHtlc htlc =>
    rcases responds with effect | ⟨rfl, _⟩
    · cases effect
      exact .inl rfl
    · exact .inl rfl
  | _ => exact .inl (congrArg World.payments responds)

/-- Whoever may write a funding outpoint is pending. -/
theorem pending_of_allowed {req : InterceptRequest} {trail : Trail} {hash : Bytes}
    {channelPoint : OutPoint} (obeyed : (contract i req).Obeyed trail)
    (allowed : (contract i req).allowed trail (.setFundingTx hash channelPoint)) :
    hash = req.paymentHash ∧ Pending ⟨req, trail⟩ := by
  obtain ⟨same, unwritten, one⟩ := allowed
  have member : channelPoint ∈ opened trail := by simp [one]
  obtain ⟨info, vetted, unfunded⟩ := justified_of_opened obeyed member
  exact ⟨same, info, vetted.read, vetted.registered, vetted.probe unfunded, unfunded, unwritten⟩

/-- No step takes a row or its channel away. -/
theorem Consistent.grow (consistent : Consistent sha256 group)
    (effect : (service sha256 i).Effect group after)
    (obeyed : ∀ call ∈ after.executions, (contract i call.leader).Obeyed call.history) :
    Grow group.world.payments after.world.payments := by
  cases effect with
  | quiet fresh world empty executions running => rw [world]; exact .refl _
  | outside interferes finished running =>
    generalize after.world = later at interferes
    cases interferes with
    | registers registration payments inserted => exact grow_registerPayment inserted
    | syncs channels => exact .refl _
  | event before later leader history happened responds finished running extended =>
    rcases respond_payments responds with same | ⟨hash, channelPoint, asked, written⟩
    · rw [same]; exact .refl _
    · have keeps := obeyed ⟨leader, history ++ [happened]⟩
        (after.running_subset (by simp [extended]))
      have allowed := allowed_of_obeyed_snoc keeps
      rw [asked] at allowed
      obtain ⟨rfl, pending⟩ := pending_of_allowed (obeyed_of_snoc keeps) allowed
      rw [written]
      exact grow_setFundingTx channelPoint
        (consistent.pending ⟨leader, history⟩ (by simp [running]) pending)

/-- The row an execution read has the execution's own hash when it is pending. -/
theorem Consistent.own_row (consistent : Consistent sha256 group) {call : Call}
    (member : call ∈ group.executions) (pending : Pending call) :
    ∃ row ∈ group.world.payments.rows, row.paymentHash = call.leader.paymentHash := by
  obtain ⟨info, read, registered, own, _, _⟩ := pending
  obtain ⟨row, found⟩ := consistent.reads call member info read registered
  obtain ⟨now, present, grows⟩ := found.lives
  refine ⟨now, present, ?_⟩
  rw [grows.paymentHash, ← (PaymentRow.info_fields found.info_eq).1, own]

theorem Consistent.step_reads (consistent : Consistent sha256 group)
    (effect : (service sha256 i).Effect group after)
    (obeyed : ∀ call ∈ after.executions, (contract i call.leader).Obeyed call.history) :
    ∀ call ∈ after.executions, ∀ info, info? call.history = some info →
      info.paymentSecret.isSome →
        ∃ row, ReadFrom sha256 after.world.payments call.leader.paymentHash info row := by
  intro call member info read registered
  have grow := consistent.grow effect obeyed
  rcases effect.origin member with old | begun | ⟨history, event, extends_, running, responds⟩
  · obtain ⟨row, found⟩ := consistent.reads call old info read registered
    exact ⟨row, found.grow grow⟩
  · simp [begun, info?] at read
  · have keeps := obeyed call member
    rw [extends_] at read keeps
    rcases info?_snoc read with earlier | ⟨rfl, hash, rfl⟩
    · obtain ⟨row, found⟩ := consistent.reads _ (group.running_subset running) info earlier registered
      exact ⟨row, found.grow grow⟩
    · obtain ⟨_, same⟩ := allowed_of_obeyed_snoc keeps
      obtain ⟨unchanged, reply⟩ := responds
      obtain ⟨row, present, found, info_eq⟩ := reply.registered registered
      rw [unchanged]
      exact ⟨row, by rwa [← same], info_eq, row, present, .refl row⟩

theorem Consistent.step_written (consistent : Consistent sha256 group)
    (effect : (service sha256 i).Effect group after)
    (obeyed : ∀ call ∈ after.executions, (contract i call.leader).Obeyed call.history) :
    ∀ call ∈ after.executions, ∀ channelPoint,
      (call.leader.paymentHash, channelPoint, true) ∈ fundings call.history →
        ∃ row ∈ after.world.payments.rows, row.paymentHash = call.leader.paymentHash ∧
          row.channelPoint = some channelPoint := by
  intro call member channelPoint written
  have kept (other : Call) (old : other ∈ group.executions)
      (before : (other.leader.paymentHash, channelPoint, true) ∈ fundings other.history) :
      ∃ row ∈ after.world.payments.rows, row.paymentHash = other.leader.paymentHash ∧
        row.channelPoint = some channelPoint := by
    obtain ⟨row, present, same, funded⟩ := consistent.written other old channelPoint before
    obtain ⟨now, later, grows⟩ := consistent.grow effect obeyed row present
    exact ⟨now, later, grows.paymentHash.trans same, grows.channel _ funded⟩
  rcases effect.origin member with old | begun | ⟨history, event, extends_, running, responds⟩
  · exact kept call old written
  · simp [begun] at written
  · have keeps := obeyed call member
    rw [extends_] at written keeps
    rw [fundings_append, List.mem_append] at written
    rcases written with earlier | now
    · exact kept ⟨call.leader, history⟩ (group.running_subset running) earlier
    · obtain ⟨op, reply⟩ := event
      cases op with
      | setFundingTx hash point =>
        simp only [fundings_cons, funding?, fundings_nil, Option.toList_some, List.append_nil,
          List.mem_singleton, Prod.mk.injEq] at now
        obtain ⟨rfl, rfl, succeeded⟩ := now
        obtain ⟨_, pending⟩ := pending_of_allowed (obeyed_of_snoc keeps) (allowed_of_obeyed_snoc keeps)
        obtain ⟨row, present, own⟩ := consistent.own_row (group.running_subset running) pending
        rcases responds with effect | ⟨_, failed⟩
        · unfold afterSetFundingTx at effect
          split at effect
          · obtain ⟨later, funded⟩ := funded_setFundingTx channelPoint present
            have same := congrArg World.payments (Option.some.inj effect)
            rw [← same, ← own]
            exact ⟨later, funded⟩
          · cases effect
        · rw [failed] at succeeded
          cases succeeded
      | _ => simp [funding?] at now

theorem Consistent.step_pending (consistent : Consistent sha256 group)
    (effect : (service sha256 i).Effect group after)
    (obeyed : ∀ call ∈ after.executions, (contract i call.leader).Obeyed call.history)
    (distinct : group.running.Pairwise
      (fun one two => one.leader.paymentHash ≠ two.leader.paymentHash)) :
    ∀ call ∈ after.running, Pending call → ∀ row ∈ after.world.payments.rows,
      row.paymentHash = call.leader.paymentHash → row.channelPoint = none := by
  intro call member pending row present own
  cases effect with
  | quiet fresh world empty executions running =>
    rw [world] at present
    rcases List.mem_append.mp (running member) with begun | old
    · obtain ⟨info, read, _⟩ := pending
      simp [empty call begun, info?] at read
    · exact consistent.pending call old pending row present own
  | outside interferes finished running =>
    rw [running] at member
    have before := consistent.pending call member pending row
    generalize after.world = later at interferes present
    cases interferes with
    | registers registration payments inserted =>
      rcases unfunded_registerPayment inserted present with old | unfunded
      · exact before old own
      · exact unfunded
    | syncs channels => exact before present own
  | event before later leader history happened responds finished running extended =>
    rw [extended, List.mem_append, List.mem_cons] at member
    have payments := respond_payments responds
    have keeps := obeyed ⟨leader, history ++ [happened]⟩
      (after.running_subset (by simp [extended]))
    rw [running, List.pairwise_append, List.pairwise_cons] at distinct
    obtain ⟨_, ⟨afterwards, _⟩, earlier⟩ := distinct
    -- the other executions work under other hashes than the one that moved
    have others (old : call ∈ group.running)
        (different : call.leader.paymentHash ≠ leader.paymentHash) : row.channelPoint = none := by
      rcases payments with same | ⟨hash, channelPoint, asked, written⟩
      · exact consistent.pending call old pending row (same ▸ present) own
      · have allowed := allowed_of_obeyed_snoc keeps
        rw [asked] at allowed
        rw [written, allowed.1] at present
        exact consistent.pending call old pending row
          (mem_setFundingTx_of_ne present (own ▸ different)) own
    rcases member with first | rfl | last
    · exact others (by simp [running, first]) (earlier call first ⟨leader, history⟩ (by simp))
    · obtain ⟨info, read, registered, same, unfunded, unwritten⟩ := pending
      rcases payments with unchanged | ⟨hash, channelPoint, asked, _⟩
      · rw [unchanged] at present
        rcases info?_snoc read with old | ⟨rfl, hash, rfl⟩
        · refine consistent.pending ⟨leader, history⟩ (by simp [running])
            ⟨info, old, registered, same, unfunded, ?_⟩ row present own
          exact (List.append_eq_nil_iff.mp ((fundings_append _ _).symm.trans unwritten)).1
        · obtain ⟨_, reply⟩ := responds
          obtain ⟨found, there, _, info_eq⟩ := reply.registered registered
          obtain ⟨hash_eq, _, _, _, _, channel_eq, _⟩ := PaymentRow.info_fields info_eq
          rw [Table.eq_of_key_eq present there (by rw [own, ← hash_eq, same]), ← channel_eq]
          exact unfunded
      · obtain ⟨op, reply⟩ := happened
        cases asked
        simp [funding?] at unwritten
    · exact others (by simp [running, last]) (afterwards call last).symm

theorem consistent_of_reachable (reachable : (service sha256 i).Reachable initial group) :
    Consistent sha256 group := by
  induction reachable with
  | refl =>
    exact ⟨by simp [Service.idle, Group.executions, Group.finished, Group.running],
      by simp [Service.idle, Group.executions, Group.finished, Group.running],
      by simp [Service.idle, Group.running]⟩
  | @tail group after reachable step ih =>
    have obeyed := (Service.Reachable.sound (intercept_follows i) (reachable.tail step)).obeyed
    have distinct := (Service.Reachable.running_distinct reachable).imp
      (fun different same => different (congrArg encodeToString same))
    exact ⟨ih.step_reads step.effect obeyed, ih.step_written step.effect obeyed,
      ih.step_pending step.effect obeyed distinct⟩

/-- Over a whole run, too, no row is lost and no channel taken away. -/
theorem grow_of_reachable (reachable : (service sha256 i).Reachable initial group) :
    Grow initial.payments group.world.payments := by
  induction reachable with
  | refl => exact .refl _
  | @tail group after reachable step ih =>
    have obeyed := (Service.Reachable.sound (intercept_follows i) (reachable.tail step)).obeyed
    exact ih.trans ((consistent_of_reachable reachable).grow step.effect obeyed)

end Lspd.Interceptor
