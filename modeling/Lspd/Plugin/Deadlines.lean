import Lspd.Plugin.Timeouts

/-! The order of the deadlines of in-flight htlcs. Without a subscriber,
`recvHtlcResolution` sets its timer by the oldest entry alone. -/

namespace Lspd.Plugin

open Lspd.Common Lspd.Process Lspd.Store

variable {s later : State} {action : Action} {count : Nat} {msg : HtlcAcceptedMsg}

/-- The htlcs the server holds, from the oldest one in flight to those that are
about to be enqueued. -/
def State.line (s : State) : List HtlcAcceptedMsg :=
  s.inflightHtlcs.rows ++ (s.requests.hand ++ (s.htlcSendQueue ++ s.enqueuing))

/-- The deadline an htlc is given now. -/
def State.deadline (s : State) : Time := s.now + s.subscriberTimeout

/-- Calls of `SendHtlcAccepted` do not overlap, and a replay sets no deadline that is
later than that of an htlc behind the replayed ones. -/
def KeepsDeadlines (s : State) : Action → Prop
  | .call _ _ => s.enqueuing = []
  | .subscribe _ count => count = 0 ∨ ∀ msg ∈ s.line.drop count, s.deadline ≤ msg.timeout
  | _ => True

structure InOrder (s : State) : Prop where
  sorted : s.line.Pairwise fun one two => one.timeout ≤ two.timeout
  bounded : ∀ msg ∈ s.line, msg.timeout ≤ s.deadline
  single : s.enqueuing.length ≤ 1

theorem InOrder.start (subscriberTimeout now : Time) : InOrder (.start subscriberTimeout now) where
  sorted := .nil
  bounded := by simp [State.start, State.line, Requests.hand, Table.empty]
  single := Nat.zero_le _

/-- Htlcs may leave the line, and time may pass. -/
theorem InOrder.sublist (order : InOrder s) (fewer : later.line.Sublist s.line)
    (deadline : s.deadline ≤ later.deadline) (single : later.enqueuing.length ≤ 1) :
    InOrder later where
  sorted := order.sorted.sublist fewer
  bounded msg member := Int.le_trans (order.bounded msg (fewer.subset member)) deadline
  single := single

theorem InOrder.same (order : InOrder s) (line : later.line = s.line)
    (deadline : later.deadline = s.deadline) (single : later.enqueuing.length ≤ 1) :
    InOrder later :=
  order.sublist (line ▸ List.Sublist.refl _) (Int.le_of_eq deadline.symm) single

theorem resetTimeouts_append {msgs behind : List HtlcAcceptedMsg} {timeout : Time}
    (within : count ≤ msgs.length) :
    resetTimeouts msgs count timeout ++ behind = resetTimeouts (msgs ++ behind) count timeout := by
  rw [resetTimeouts, resetTimeouts, List.take_append_of_le_length within,
    List.drop_append_of_le_length within, List.append_assoc]

theorem mem_resetTimeouts {msgs : List HtlcAcceptedMsg} {timeout : Time}
    (bounded : ∀ old ∈ msgs, old.timeout ≤ timeout)
    (member : msg ∈ resetTimeouts msgs count timeout) :
    msg.timeout ≤ timeout ∧ ∃ old ∈ msgs, old.timeout ≤ msg.timeout := by
  rcases List.mem_append.mp member with replayed | behind
  · obtain ⟨old, among, rfl⟩ := List.mem_map.mp replayed
    have stored := List.mem_of_mem_take among
    exact ⟨Int.le_refl _, old, stored, bounded old stored⟩
  · have stored := List.mem_of_mem_drop behind
    exact ⟨bounded msg stored, msg, stored, Int.le_refl _⟩

theorem resetTimeouts_sorted {msgs : List HtlcAcceptedMsg} {timeout : Time}
    (sorted : msgs.Pairwise fun one two => one.timeout ≤ two.timeout)
    (behind : count = 0 ∨ ∀ msg ∈ msgs.drop count, timeout ≤ msg.timeout) :
    (resetTimeouts msgs count timeout).Pairwise fun one two => one.timeout ≤ two.timeout := by
  rcases behind with rfl | later
  · simpa [resetTimeouts] using sorted
  · rw [resetTimeouts, List.pairwise_append]
    refine ⟨?_, sorted.drop, ?_⟩
    · rw [List.pairwise_map]
      exact List.pairwise_of_forall fun _ _ => Int.le_refl _
    · intro one replayed two member
      obtain ⟨old, _, rfl⟩ := List.mem_map.mp replayed
      exact later two member

/-- A replay keeps the order if it covers every htlc with an earlier deadline. -/
theorem InOrder.replay (order : InOrder s) (within : count ≤ s.inflightHtlcs.rows.length)
    (behind : count = 0 ∨ ∀ msg ∈ s.line.drop count, s.deadline ≤ msg.timeout)
    (line : later.line = (s.replayed count).rows ++
      (s.requests.hand ++ (s.htlcSendQueue ++ s.enqueuing)))
    (deadline : later.deadline = s.deadline) (single : later.enqueuing.length ≤ 1) :
    InOrder later := by
  have reset : later.line = resetTimeouts s.line count s.deadline :=
    line.trans (resetTimeouts_append within)
  refine ⟨?_, ?_, single⟩
  · rw [reset]
    exact resetTimeouts_sorted order.sorted behind
  · rw [reset, deadline]
    exact fun msg member => (mem_resetTimeouts order.bounded member).1

theorem InOrder.step (order : InOrder s) (ordered : Ordered s) (allowed : KeepsDeadlines s action)
    (step : Step s action later) : InOrder later := by
  have single := order.single
  cases step with
  | refuse _ _ | disconnect _ | remove _ _ _ | pollNone _ _ | pollStream _ _ | wakeReceive _ _
  | expireOldest _ _ | answer _ _ _ | receiveError _ | push _ _ | dequeue _ =>
    exact order.same rfl rfl single
  | tick elapsed =>
    refine order.sublist (.refl _) ?_ single
    exact Int.add_le_add_right (Int.le_add_of_nonneg_right (Int.natCast_nonneg elapsed)) _
  | call id htlc new =>
    have alone : s.enqueuing = [] := allowed
    have line : ∀ new : HtlcAcceptedMsg,
        s.inflightHtlcs.rows ++ (s.requests.hand ++ (s.htlcSendQueue ++ (s.enqueuing ++ [new]))) =
          s.line ++ [new] := by
      intro new
      simp only [State.line, List.append_assoc]
    refine ⟨?_, ?_, by simp [alone]⟩
    · rw [State.line, line, List.pairwise_append]
      refine ⟨order.sorted, List.pairwise_singleton _ _, ?_⟩
      intro one member two last
      rw [List.mem_singleton.mp last]
      exact order.bounded one member
    · intro msg member
      rw [State.line, line] at member
      rcases List.mem_append.mp member with old | last
      · exact order.bounded msg old
      · rw [List.mem_singleton.mp last]
        exact Int.le_refl _
  | @enqueue msg waiting room =>
    -- the caller is the only one, so its message comes next
    obtain ⟨only, alone⟩ := List.length_eq_one_iff.mp
      (Nat.le_antisymm single (List.length_pos_of_mem waiting))
    obtain rfl : msg = only := List.mem_singleton.mp (alone ▸ waiting)
    refine order.same ?_ rfl (by simp [alone])
    simp [State.line, alone]
  | take here queue =>
    refine order.same ?_ rfl single
    simp [State.line, here, queue, Requests.hand]
  | sampleNone here _ | sampleStream here _ | wake here _ | expire here _ =>
    refine order.same ?_ rfl single
    simp [State.line, here, Requests.hand]
  | release here room =>
    refine order.sublist ?_ (Int.le_refl _) single
    rw [State.line, State.line, here]
    exact (List.Sublist.refl _).append ((List.nil_sublist _).append (.refl _))
  | @deliver msg stream here alive =>
    have held : s.requests.hand = [msg] := by rw [here, Requests.hand]
    refine order.same ?_ rfl single
    simp [State.line, Table.rows_set (ordered.vacant held), here, Requests.hand]
  | @sendError msg stream here =>
    have held : s.requests.hand = [msg] := by rw [here, Requests.hand]
    refine order.same ?_ rfl single
    simp only [State.line, Table.rows_delete_set (ordered.vacant held), held]
    rfl
  | subscribe stream new free alive =>
    exact order.replay (Nat.le_refl _) allowed rfl rfl single
  | subscribeError new free partway alive =>
    exact order.replay (Nat.le_of_lt partway) allowed rfl rfl single
  | delete id pending =>
    refine order.sublist ?_ (Int.le_refl _) single
    exact List.filter_sublist.append (.refl _)

/-- The states of the runs in which every step keeps the deadlines in order. -/
abbrev ReachableInOrder (s : State) : Prop := server.ReachableWhen KeepsDeadlines s

theorem inOrder_of_reachable (reachable : ReachableInOrder s) : InOrder s := by
  refine reachable.induct InOrder ?_ ?_
  · rintro _ ⟨subscriberTimeout, now, rfl⟩
    exact .start subscriberTimeout now
  · intro s action later before order allowed step
    exact order.step (ordered_of_reachable before) allowed step

/-- The timer that `recvHtlcResolution` waits on, unless a subscriber came since, is
not later than the deadline of any htlc in flight. -/
def Timed (s : State) : Prop :=
  ∀ ns sampled, s.responses = .waiting ns sampled → ns < s.htlcnewSubscriber ∨
    ∀ msg ∈ s.inflightHtlcs.rows, ∃ oldest, sampled = some oldest ∧ oldest.timeout ≤ msg.timeout

theorem Timed.keep (timed : Timed s) (responses : later.responses = s.responses)
    (channel : later.htlcnewSubscriber = s.htlcnewSubscriber)
    (rows : ∀ new ∈ later.inflightHtlcs.rows, ∃ old ∈ s.inflightHtlcs.rows,
      old.timeout ≤ new.timeout) : Timed later := by
  intro ns sampled here
  rcases timed ns sampled (responses ▸ here) with woken | early
  · exact .inl (channel ▸ woken)
  · refine .inr fun new member => ?_
    obtain ⟨old, stored, sooner⟩ := rows new member
    obtain ⟨oldest, same, first⟩ := early old stored
    exact ⟨oldest, same, Int.le_trans first sooner⟩

theorem Timed.same (timed : Timed s) (responses : later.responses = s.responses)
    (channel : later.htlcnewSubscriber = s.htlcnewSubscriber)
    (rows : later.inflightHtlcs.rows = s.inflightHtlcs.rows) : Timed later :=
  timed.keep responses channel fun new member => ⟨new, rows ▸ member, Int.le_refl _⟩

/-- The oldest htlc has the earliest deadline. -/
theorem InOrder.oldest (order : InOrder s) (member : msg ∈ s.inflightHtlcs.rows) :
    ∃ oldest, s.inflightHtlcs.rows.head? = some oldest ∧ oldest.timeout ≤ msg.timeout := by
  have sorted := order.sorted.sublist (List.sublist_append_left ..)
  cases rows : s.inflightHtlcs.rows with
  | nil => simp [rows] at member
  | cons oldest rest =>
    rw [rows] at member sorted
    refine ⟨oldest, rfl, ?_⟩
    rcases List.mem_cons.mp member with rfl | behind
    · exact Int.le_refl _
    · exact List.rel_of_pairwise_cons sorted behind

theorem Timed.step (timed : Timed s) (order : InOrder s) (reachable : Reachable s)
    (step : Step s action later) : Timed later := by
  have ordered := ordered_of_reachable reachable
  cases step with
  | tick _ | call _ _ _ | enqueue _ _ | take _ _ | sampleNone _ _ | sampleStream _ _ | wake _ _
  | expire _ _ | release _ _ | refuse _ _ | disconnect _ | remove _ _ _ | dequeue _ =>
    exact timed.same rfl rfl rfl
  | pollStream _ _ | wakeReceive _ _ | expireOldest _ _ | answer _ _ _ | receiveError _
  | push _ _ =>
    intro ns sampled here
    cases here
  | @deliver msg stream here alive =>
    intro ns sampled waiting
    left
    -- the stream is still registered, so the waiting goroutine has been woken
    have registered : s.htlcStream = some stream :=
      ((registered_of_reachable reachable).stale msg stream here).resolve_right (by simp [alive])
    obtain ⟨bound, free⟩ := (watching_of_reachable reachable).responses ns sampled waiting
    refine Nat.lt_of_le_of_ne bound fun current => ?_
    rw [registered] at free
    cases free current
  | @sendError msg stream here =>
    exact timed.same rfl rfl (Table.rows_delete_set (ordered.vacant (by rw [here, Requests.hand])))
  | subscribe stream new free alive =>
    intro ns sampled waiting
    exact .inl (Nat.lt_succ_of_le ((watching_of_reachable reachable).responses ns sampled waiting).1)
  | subscribeError new free partway alive =>
    refine timed.keep rfl rfl fun new member => (mem_resetTimeouts ?_ member).2
    exact fun old stored => order.bounded old (List.mem_append_left _ stored)
  | pollNone here free =>
    intro ns sampled waiting
    obtain ⟨_, rfl⟩ := Responses.waiting.inj waiting
    exact .inr fun msg member => order.oldest member
  | delete id pending =>
    exact timed.keep rfl rfl fun new member =>
      ⟨new, (Table.mem_delete.mp member).1, Int.le_refl _⟩

theorem timed_of_reachable (reachable : ReachableInOrder s) : Timed s := by
  suffices InOrder s ∧ Timed s from this.2
  refine reachable.induct (fun s => InOrder s ∧ Timed s) ?_ ?_
  · rintro _ ⟨subscriberTimeout, now, rfl⟩
    exact ⟨.start subscriberTimeout now, fun ns sampled here => nomatch here⟩
  · rintro s action later before ⟨order, timed⟩ allowed step
    exact ⟨order.step (ordered_of_reachable before) allowed step, timed.step order before step⟩

/-- In every run whose steps keep the deadlines in order, the in-flight htlcs stand
in the order of their deadlines, and while one of them is past its own,
`recvHtlcResolution` does not go on waiting. -/
theorem inflight_by_deadline (reachable : ReachableInOrder s) :
    (s.inflightHtlcs.rows.Pairwise fun one two => one.timeout ≤ two.timeout) ∧
      ∀ ns sampled, s.responses = .waiting ns sampled →
        ∀ msg ∈ s.inflightHtlcs.rows, msg.timeout ≤ s.now →
          (∃ later, Step s .wakeReceive later) ∨ ∃ later, Step s .expireOldest later := by
  refine ⟨(inOrder_of_reachable reachable).sorted.sublist (List.sublist_append_left ..), ?_⟩
  intro ns sampled here msg member late
  rcases timed_of_reachable reachable ns sampled here with woken | early
  · exact .inl ⟨_, .wakeReceive here woken⟩
  · obtain ⟨oldest, rfl, sooner⟩ := early msg member
    exact .inr ⟨_, .expireOldest here (Int.le_trans sooner late)⟩

private theorem step_inOrder (reachable : ReachableInOrder s) (step : Step s action later)
    (allowed : KeepsDeadlines s action) : ReachableInOrder later :=
  reachable.step allowed step

/-- Two htlcs in flight are replayed to a second subscriber, who is lost as well. -/
theorem inflight_by_deadline_replayed :
    ∃ s, ReachableInOrder s ∧ s.htlcStream = none ∧ s.now = 150 ∧
      s.inflightHtlcs.rows.map HtlcAcceptedMsg.timeout = [150, 150] ∧
      (s.inflightHtlcs.rows.Pairwise fun one two => one.timeout ≤ two.timeout) ∧
      ((∃ later, Step s .wakeReceive later) ∨ ∃ later, Step s .expireOldest later) := by
  have start : ReachableInOrder (.start 100 0) := .start ⟨100, 0, rfl⟩
  have subscribed := step_inOrder start (.subscribe 0 rfl rfl (.inl rfl)) (Or.inl rfl)
  have first := step_inOrder subscribed (.call "1" sampleAccepted (by decide)) rfl
  have queued := step_inOrder first (.enqueue (.head _) (by decide)) trivial
  have taken := step_inOrder queued (.take rfl rfl) trivial
  have sampled := step_inOrder taken (.sampleStream rfl rfl) trivial
  have sent := step_inOrder sampled (.deliver rfl rfl) trivial
  have passed := step_inOrder sent (.tick 5) trivial
  have second := step_inOrder passed (.call "2" sampleAccepted (by decide)) rfl
  have queued := step_inOrder second (.enqueue (.head _) (by decide)) trivial
  have taken := step_inOrder queued (.take rfl rfl) trivial
  have sampled := step_inOrder taken (.sampleStream rfl rfl) trivial
  have sent := step_inOrder sampled (.deliver rfl rfl) trivial
  have disconnected := step_inOrder sent (.disconnect 0) trivial
  have removed := step_inOrder disconnected (.remove 0 rfl rfl) trivial
  have waited := step_inOrder removed (.tick 45) trivial
  have replayed := step_inOrder waited (.subscribe 1 rfl rfl (.inl rfl)) (Or.inr (by decide))
  have disconnected := step_inOrder replayed (.disconnect 1) trivial
  have removed := step_inOrder disconnected (.remove 1 rfl rfl) trivial
  have polled := step_inOrder removed (.pollNone rfl rfl) trivial
  have late := step_inOrder polled (.tick 100) trivial
  obtain ⟨sorted, released⟩ := inflight_by_deadline late
  exact ⟨_, late, rfl, by decide, by decide, sorted,
    released _ _ rfl ⟨"1", sampleAccepted, 150⟩ (by decide) (by decide)⟩

theorem not_wakeReceive {ns : Nat} {sampled : Option HtlcAcceptedMsg}
    (here : s.responses = .waiting ns sampled) (current : s.htlcnewSubscriber ≤ ns) :
    ¬ Step s .wakeReceive later := by
  intro step
  cases step with
  | wakeReceive waiting closed =>
    obtain ⟨rfl, _⟩ := Responses.waiting.inj (here.symm.trans waiting)
    exact Nat.not_le.mpr closed current

theorem not_expireOldest {ns : Nat} {oldest : HtlcAcceptedMsg}
    (here : s.responses = .waiting ns (some oldest)) (early : s.now < oldest.timeout) :
    ¬ Step s .expireOldest later := by
  intro step
  cases step with
  | expireOldest waiting late =>
    obtain ⟨_, same⟩ := Responses.waiting.inj (here.symm.trans waiting)
    obtain rfl := Option.some.inj same
    exact Int.not_le.mpr early late

/-- The second htlc is still queued when a new subscriber resets the deadline of the
first. Both are in flight when that subscriber is lost, and the second stays there
beyond its own deadline. -/
theorem held_past_deadline :
    ∃ s, Reachable s ∧ s.htlcStream = none ∧
      s.inflightHtlcs.rows =
        [⟨"1", sampleAccepted, 150⟩, ⟨"2", sampleAccepted, 105⟩] ∧
      s.responses = .waiting 2 (some ⟨"1", sampleAccepted, 150⟩) ∧ s.now = 110 ∧
      (∀ later, ¬ Step s .wakeReceive later) ∧ ∀ later, ¬ Step s .expireOldest later := by
  have subscribed := (reachable_start 100 0).step (.subscribe 0 rfl rfl (.inl rfl))
  have first := ((subscribed.step (.call "1" sampleAccepted (by decide))).step
    (.enqueue (.head _) (by decide))).step (.take rfl rfl)
  have sent := (first.step (.sampleStream rfl rfl)).step (.deliver rfl rfl)
  have removed := (sent.step (.disconnect 0)).step (.remove 0 rfl rfl)
  have second := ((removed.step (.tick 5)).step (.call "2" sampleAccepted (by decide))).step
    (.enqueue (.head _) (by decide))
  have replayed := (second.step (.tick 45)).step (.subscribe 1 rfl rfl (.inl rfl))
  have both := ((replayed.step (.take rfl rfl)).step (.sampleStream rfl rfl)).step
    (.deliver rfl rfl)
  have lost := (both.step (.disconnect 1)).step (.remove 1 rfl rfl)
  have waiting := (lost.step (.pollNone rfl rfl)).step (.tick 60)
  exact ⟨_, waiting, rfl, by decide, by decide, by decide,
    fun later => not_wakeReceive rfl (by decide), fun later => not_expireOldest rfl (by decide)⟩

end Lspd.Plugin
