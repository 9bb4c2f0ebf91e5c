import Lspd.Plugin.Server

/-! The way of an htlc through the server: it is never dropped, and every
subscriber sees the htlcs in the order cln sent them. -/

namespace Lspd.Plugin

open Lspd.Common Lspd.Store

/-- The message `listenHtlcRequests` holds. -/
def Requests.hand : Requests → List HtlcAcceptedMsg
  | .idle => []
  | .handling msg => [msg]
  | .waiting msg _ => [msg]
  | .sending msg _ => [msg]
  | .releasing msg => [msg]

def State.handIds (s : State) : List String := s.requests.hand.map HtlcAcceptedMsg.id

def State.queueIds (s : State) : List String := s.htlcSendQueue.map HtlcAcceptedMsg.id

def State.resultIds (s : State) : List String := s.htlcRecvQueue.map HtlcResultMsg.id

variable {s later : State} {action : Action}

/-- Htlcs pass the queue, the hands of `listenHtlcRequests` and the in-flight
map one after the other, under ids that never repeat. -/
structure Ordered (s : State) : Prop where
  split : s.accepted = s.handled ++ s.handIds ++ s.queueIds
  distinct : (s.accepted ++ s.enqueuing.map HtlcAcceptedMsg.id).Nodup
  known : ∀ id ∈ s.accepted ++ s.enqueuing.map HtlcAcceptedMsg.id, id ∈ s.called
  inflight : s.inflightIds.Sublist s.handled
  sent : ∀ stream, (s.sent stream).Sublist s.handled

theorem Ordered.start (subscriberTimeout now : Time) :
    Ordered (.start subscriberTimeout now) where
  split := rfl
  distinct := List.nodup_nil
  known := by simp [State.start]
  inflight := .refl _
  sent _ := .refl _

theorem Ordered.accepted_nodup (ordered : Ordered s) : s.accepted.Nodup :=
  (List.nodup_append.mp ordered.distinct).1

/-- The message in hand has not been handled before. -/
theorem Ordered.hand_new (ordered : Ordered s) {msg : HtlcAcceptedMsg}
    (held : s.requests.hand = [msg]) : msg.id ∉ s.handled := by
  intro handled
  have nodup := ordered.accepted_nodup
  rw [ordered.split, State.handIds, held] at nodup
  rw [List.append_assoc] at nodup
  exact (List.nodup_append.mp nodup).2.2 msg.id handled msg.id (by simp) rfl

theorem Ordered.vacant (ordered : Ordered s) {msg : HtlcAcceptedMsg}
    (held : s.requests.hand = [msg]) :
    ∀ old ∈ s.inflightHtlcs.rows, HtlcAcceptedMsg.id old ≠ msg.id := by
  intro old member same
  exact ordered.hand_new held
    (same ▸ ordered.inflight.subset (List.mem_map_of_mem member))

theorem Ordered.set_ids (ordered : Ordered s) {msg : HtlcAcceptedMsg}
    (held : s.requests.hand = [msg]) :
    (s.inflightHtlcs.set msg).rows.map HtlcAcceptedMsg.id = s.inflightIds ++ [msg.id] := by
  rw [Table.rows_set (ordered.vacant held), List.map_append]
  rfl

/-- A failed send leaves the in-flight htlcs as they were. -/
theorem Ordered.delete_set_ids (ordered : Ordered s) {msg : HtlcAcceptedMsg}
    (held : s.requests.hand = [msg]) :
    ((s.inflightHtlcs.set msg).delete msg.id).rows.map HtlcAcceptedMsg.id = s.inflightIds := by
  rw [Table.rows_delete_set (ordered.vacant held)]
  rfl

theorem State.delete_ids (s : State) (target : String) :
    ((s.inflightHtlcs.delete target).rows.map HtlcAcceptedMsg.id).Sublist s.inflightIds :=
  List.filter_sublist.map _

theorem enqueue_perm {msg : HtlcAcceptedMsg} (waiting : msg ∈ s.enqueuing) :
    ((s.accepted ++ [msg.id]) ++ (s.enqueuing.erase msg).map HtlcAcceptedMsg.id).Perm
      (s.accepted ++ s.enqueuing.map HtlcAcceptedMsg.id) := by
  rw [List.append_assoc]
  exact ((List.perm_cons_erase waiting).map HtlcAcceptedMsg.id).symm.append_left _

/-- Handling ends for the message in hand. -/
theorem Ordered.split_handled (ordered : Ordered s) {msg : HtlcAcceptedMsg}
    (held : s.requests.hand = [msg]) :
    s.accepted = s.handled ++ [msg.id] ++ [] ++ s.queueIds := by
  rw [ordered.split, State.handIds, held, List.append_nil]
  rfl

/-- `handleHtlcAccepted` goes on with the message it holds. -/
theorem Ordered.hold (ordered : Ordered s) {requests : Requests}
    (same : requests.hand = s.requests.hand) : Ordered { s with requests } where
  split := by
    rw [ordered.split]
    simp only [State.handIds, State.queueIds, same]
  distinct := ordered.distinct
  known := ordered.known
  inflight := ordered.inflight
  sent := ordered.sent

theorem Ordered.step (ordered : Ordered s) (step : Step s action later) : Ordered later := by
  obtain ⟨split, distinct, known, inflight, sent⟩ := id ordered
  cases step with
  | tick _ | refuse _ _ | disconnect _ | remove _ _ _ | pollNone _ _ | pollStream _ _ | wakeReceive _ _
  | expireOldest _ _ | answer _ _ _ | receiveError _ | push _ _ | dequeue _ =>
    exact ⟨split, distinct, known, inflight, sent⟩
  | call id htlc new =>
    refine ⟨split, ?_, ?_, inflight, sent⟩
    · rw [List.map_append, ← List.append_assoc, List.nodup_append]
      refine ⟨distinct, List.pairwise_singleton _ _, ?_⟩
      intro old member added one same
      have fresh : old = id := same.trans (List.mem_singleton.mp one)
      exact new (fresh ▸ known old member)
    · intro other member
      rw [List.map_append, ← List.append_assoc, List.mem_append] at member
      rcases member with old | one
      · exact List.mem_append_left _ (known other old)
      · exact List.mem_append_right _ one
  | @enqueue msg waiting room =>
    have perm := enqueue_perm waiting
    refine ⟨?_, perm.nodup_iff.mpr distinct, ?_, inflight, sent⟩
    · simp only [split, State.handIds, State.queueIds, List.map_append, List.map_cons, List.map_nil,
        List.append_assoc]
    · intro other member
      exact known other (perm.subset member)
  | @take msg rest here queue =>
    refine ⟨?_, distinct, known, inflight, sent⟩
    simp [split, State.handIds, State.queueIds, here, queue, Requests.hand]
  | sampleNone here free => exact ordered.hold (by simp [here, Requests.hand])
  | sampleStream here active => exact ordered.hold (by simp [here, Requests.hand])
  | wake here closed => exact ordered.hold (by simp [here, Requests.hand])
  | expire here late => exact ordered.hold (by simp [here, Requests.hand])
  | @release msg here room =>
    have held : s.requests.hand = [msg] := by rw [here, Requests.hand]
    exact ⟨ordered.split_handled held, distinct, known, inflight.trans (List.sublist_append_left ..),
      fun stream => (sent stream).trans (List.sublist_append_left ..)⟩
  | @deliver msg stream here alive =>
    have held : s.requests.hand = [msg] := by rw [here, Requests.hand]
    refine ⟨ordered.split_handled held, distinct, known, ?_, ?_⟩
    · rw [State.inflightIds, ordered.set_ids held]
      exact inflight.append (.refl _)
    · refine (Function.forall_update_iff s.sent fun _ ids => ids.Sublist (s.handled ++ [msg.id])).mpr ?_
      exact ⟨(sent stream).append (.refl _),
        fun other _ => (sent other).trans (List.sublist_append_left ..)⟩
  | @sendError msg stream here =>
    have held : s.requests.hand = [msg] := by rw [here, Requests.hand]
    refine ⟨?_, distinct, known, ?_, sent⟩
    · simp only [split, State.handIds, held, State.queueIds]
      rfl
    · rw [State.inflightIds, ordered.delete_set_ids held]
      exact inflight
  | subscribe stream new free alive =>
    refine ⟨split, distinct, known, ?_, ?_⟩
    · simpa [State.inflightIds] using inflight
    · refine (Function.forall_update_iff s.sent fun _ ids => ids.Sublist s.handled).mpr ?_
      exact ⟨inflight, fun other _ => sent other⟩
  | @subscribeError stream count new free partway alive =>
    refine ⟨split, distinct, known, ?_, ?_⟩
    · simpa [State.inflightIds] using inflight
    · refine (Function.forall_update_iff s.sent fun _ ids => ids.Sublist s.handled).mpr ?_
      exact ⟨(List.take_sublist _ _).trans inflight, fun other _ => sent other⟩
  | delete id pending =>
    refine ⟨split, distinct, known, ?_, sent⟩
    exact (s.delete_ids id).trans inflight

theorem ordered_of_reachable (reachable : Reachable s) : Ordered s :=
  holds_of_reachable .start (fun _ ordered step => ordered.step step) reachable

/-- An htlc that was handled has its result returned, or waits for it. -/
structure Kept (s : State) : Prop where
  handled : ∀ id ∈ s.handled, id ∈ s.returned ∨ id ∈ s.inflightIds ∨ id ∈ s.resultIds
  deleting : ∀ id ∈ s.deleting, id ∈ s.returned

theorem Kept.start (subscriberTimeout now : Time) : Kept (.start subscriberTimeout now) where
  handled := by simp [State.start]
  deleting := by simp [State.start]

theorem Kept.step (kept : Kept s) (ordered : Ordered s) (step : Step s action later) :
    Kept later := by
  obtain ⟨handled, deleting⟩ := kept
  cases step with
  | tick _ | call _ _ _ | enqueue _ _ | take _ _ | sampleNone _ _ | sampleStream _ _ | wake _ _
  | expire _ _ | refuse _ _ | disconnect _ | remove _ _ _ | pollNone _ _ | pollStream _ _
  | wakeReceive _ _ | expireOldest _ _ | answer _ _ _ | receiveError _ =>
    exact ⟨handled, deleting⟩
  | @release msg here room =>
    refine ⟨?_, deleting⟩
    intro id member
    rcases List.mem_append.mp member with old | one
    · rcases handled id old with back | flying | result
      · exact .inl back
      · exact .inr (.inl flying)
      · exact .inr (.inr (by simp [State.resultIds] at result ⊢; exact .inl result))
    · exact .inr (.inr (by simp [State.resultIds, List.mem_singleton.mp one]))
  | @deliver msg stream here alive =>
    refine ⟨?_, deleting⟩
    intro id member
    rw [State.inflightIds, ordered.set_ids (by rw [here, Requests.hand]), List.mem_append]
    rcases List.mem_append.mp member with old | one
    · rcases handled id old with back | flying | result
      · exact .inl back
      · exact .inr (.inl (.inl flying))
      · exact .inr (.inr result)
    · exact .inr (.inl (.inr one))
  | @sendError msg stream here =>
    refine ⟨?_, deleting⟩
    rw [State.inflightIds, ordered.delete_set_ids (by rw [here, Requests.hand])]
    exact handled
  | subscribe _ _ _ _ =>
    refine ⟨?_, deleting⟩
    simp only [State.inflightIds, State.replayed_ids]
    exact handled
  | subscribeError _ _ _ _ =>
    refine ⟨?_, deleting⟩
    simp only [State.inflightIds, State.replayed_ids]
    exact handled
  | push here room =>
    refine ⟨?_, deleting⟩
    intro id member
    refine (handled id member).imp_right (.imp_right fun result => ?_)
    simp only [State.resultIds, List.map_append]
    exact List.mem_append_left _ result
  | dequeue queue =>
    constructor
    · intro id member
      simp only [State.resultIds, queue, List.map_cons, List.mem_cons] at handled
      simp only [List.mem_append, List.mem_singleton]
      rcases handled id member with back | flying | first | result
      · exact .inl (.inl back)
      · exact .inr (.inl flying)
      · exact .inl (.inr first)
      · exact .inr (.inr result)
    · intro id member
      simp only [List.mem_append] at member ⊢
      exact member.imp_left (deleting id)
  | delete target pending =>
    refine ⟨?_, fun id member => deleting id (List.mem_of_mem_erase member)⟩
    intro id member
    by_cases same : id = target
    · exact .inl (same ▸ deleting target pending)
    · refine (handled id member).imp_right (.imp_left fun flying => ?_)
      obtain ⟨msg, stored, rfl⟩ := List.mem_map.mp flying
      exact List.mem_map_of_mem (Table.mem_delete.mpr ⟨stored, same⟩)

theorem kept_of_reachable (reachable : Reachable s) : Kept s :=
  holds_of_reachable .start (fun before kept step =>
    kept.step (ordered_of_reachable before) step) reachable

/-- No htlc is dropped: cln has its result, or it is on one of the queues, in
the hands of `listenHtlcRequests`, or in flight. -/
theorem accepted_kept (reachable : Reachable s) {id : String} (accepted : id ∈ s.accepted)
    (pending : id ∉ s.returned) :
    id ∈ s.queueIds ∨ id ∈ s.handIds ∨ id ∈ s.inflightIds ∨ id ∈ s.resultIds := by
  rw [(ordered_of_reachable reachable).split] at accepted
  rcases List.mem_append.mp accepted with earlier | queued
  · rcases List.mem_append.mp earlier with handled | held
    · rcases (kept_of_reachable reachable).handled id handled with back | flying | result
      · exact absurd back pending
      · exact .inr (.inr (.inl flying))
      · exact .inr (.inr (.inr result))
    · exact .inr (.inl held)
  · exact .inl queued

def sampleAccepted : HtlcAccepted :=
  { onion := ⟨"", some "1x1x1", some 1000, some 500, none, none⟩
    htlc := ⟨"2x2x2", 0, 1001, 540, 80, "00"⟩
    forwardTo := "" }

/-- The subscriber is lost between the sample of the stream and the send. -/
theorem accepted_kept_send_error :
    ∃ s, Reachable s ∧ s.htlcStream = none ∧ "1" ∈ s.accepted ∧ "1" ∉ s.returned ∧
      ("1" ∈ s.queueIds ∨ "1" ∈ s.handIds ∨ "1" ∈ s.inflightIds ∨ "1" ∈ s.resultIds) := by
  have called := (reachable_start 100 0).step (.call "1" sampleAccepted (by decide))
  have queued := called.step (.enqueue (.head _) (by decide))
  have subscribed := queued.step (.subscribe 0 rfl rfl (.inl rfl))
  have taken := subscribed.step (.take rfl rfl)
  have sampled := taken.step (.sampleStream rfl rfl)
  have disconnected := sampled.step (.disconnect 0)
  have removed := disconnected.step (.remove 0 rfl rfl)
  have failed := removed.step (.sendError rfl)
  exact ⟨_, failed, rfl, by decide, by decide, accepted_kept failed (by decide) (by decide)⟩

/-- The registered stream, the stream `handleHtlcAccepted` sends to and the
in-flight htlcs agree with each other. -/
structure Registered (s : State) : Prop where
  active : ∀ stream, s.subscription stream = .active ↔ s.htlcStream = some stream
  stale : ∀ msg stream, s.requests = .sending msg stream →
    s.htlcStream = some stream ∨ s.done stream = true
  sent : ∀ stream, s.htlcStream = some stream → s.inflightIds ⊆ s.sent stream

theorem Registered.start (subscriberTimeout now : Time) :
    Registered (.start subscriberTimeout now) where
  active := by simp [State.start]
  stale := by simp [State.start]
  sent := by simp [State.start]

theorem Registered.step (registered : Registered s) (ordered : Ordered s)
    (step : Step s action later) : Registered later := by
  obtain ⟨active, stale, sent⟩ := registered
  cases step with
  | tick _ | call _ _ _ | enqueue _ _ | pollNone _ _ | pollStream _ _ | wakeReceive _ _
  | expireOldest _ _ | answer _ _ _ | receiveError _ | push _ _ | dequeue _ =>
    exact ⟨active, stale, sent⟩
  | take _ _ | sampleNone _ _ | wake _ _ | expire _ _ | release _ _ =>
    exact ⟨active, by simp, sent⟩
  | sampleStream here free => exact ⟨active, by simp [free], sent⟩
  | @deliver msg stream here alive =>
    refine ⟨active, by simp, ?_⟩
    intro other taken
    -- the send succeeded, so the stream that was sampled is still the registered one
    have same : other = stream := by
      rcases stale msg stream here with registered | finished
      · exact Option.some.inj (taken.symm.trans registered)
      · exact absurd (finished.symm.trans alive) (by decide)
    subst same
    rw [State.inflightIds, ordered.set_ids (by rw [here, Requests.hand])]
    simpa using List.subset_append_of_subset_left [msg.id] (sent other taken)
  | @sendError msg stream here =>
    refine ⟨active, by simp, ?_⟩
    rw [State.inflightIds, ordered.delete_set_ids (by rw [here, Requests.hand])]
    exact sent
  | subscribe stream new free alive =>
    refine ⟨?_, ?_, ?_⟩
    · intro other
      by_cases same : other = stream
      · simp [same]
      · have idle : s.subscription other ≠ .active := by simp [active, free]
        simp [same, idle, Ne.symm same]
    · intro msg other here
      exact .inr ((stale msg other here).resolve_left (by simp [free]))
    · intro other taken
      obtain rfl : stream = other := Option.some.inj taken
      simp [State.inflightIds]
  | @subscribeError stream count new free partway alive =>
    refine ⟨?_, stale, by simp [free]⟩
    intro other
    by_cases same : other = stream
    · simp [same, free]
    · simp [same, active]
  | @refuse stream other new taken =>
    refine ⟨?_, stale, sent⟩
    intro one
    by_cases same : one = stream
    · have fresh := mt (active stream).mpr (by simp [new])
      simp [same, fresh]
    · simp [same, active]
  | disconnect stream =>
    refine ⟨active, ?_, sent⟩
    intro msg other here
    by_cases same : other = stream
    · simp [same]
    · simpa [same] using stale msg other here
  | remove stream here finished =>
    have taken := (active stream).mp here
    refine ⟨?_, ?_, by simp⟩
    · intro other
      by_cases same : other = stream
      · simp [same]
      · simp [same, active, taken, Ne.symm same]
    · intro msg other sending
      rcases stale msg other sending with registered | gone
      · have same : stream = other := Option.some.inj (taken.symm.trans registered)
        exact .inr (same ▸ finished)
      · exact .inr gone
  | delete target pending =>
    exact ⟨active, stale, fun stream taken =>
      List.Subset.trans (s.delete_ids target).subset (sent stream taken)⟩

theorem registered_of_reachable (reachable : Reachable s) : Registered s :=
  holds_of_reachable .start (fun before registered step =>
    registered.step (ordered_of_reachable before) step) reachable

/-- The place of an id in the order of `SendHtlcAccepted`. -/
def State.position (s : State) (id : String) : Nat := s.accepted.idxOf id

theorem Ordered.increasing (ordered : Ordered s) :
    s.accepted.Pairwise fun one two => s.position one < s.position two := by
  have nodup := ordered.accepted_nodup
  rw [List.pairwise_iff_getElem]
  intro i j first second before
  rw [State.position, State.position, nodup.idxOf_getElem, nodup.idxOf_getElem]
  exact before

theorem Ordered.sent_accepted (ordered : Ordered s) (stream : StreamId) :
    (s.sent stream).Sublist s.accepted := by
  rw [ordered.split, List.append_assoc]
  exact (ordered.sent stream).trans (List.sublist_append_left ..)

/-- Every stream carries accepted htlcs in the order cln sent them, and the
registered stream has been sent all that is in flight. -/
theorem sent_in_order (reachable : Reachable s) (stream : StreamId) :
    (∀ id ∈ s.sent stream, id ∈ s.accepted) ∧
      (s.sent stream).Pairwise (fun one two => s.position one < s.position two) ∧
        (s.htlcStream = some stream → ∀ id ∈ s.inflightIds, id ∈ s.sent stream) := by
  have ordered := ordered_of_reachable reachable
  have inOrder := ordered.sent_accepted stream
  refine ⟨fun id member => inOrder.subset member, ordered.increasing.sublist inOrder, ?_⟩
  intro taken id member
  exact (registered_of_reachable reachable).sent stream taken member

/-- A second subscriber takes over two htlcs in flight. -/
theorem sent_in_order_replay :
    ∃ s, Reachable s ∧ s.htlcStream = some 1 ∧ s.inflightIds = ["1", "2"] ∧
      (∀ id ∈ s.sent 1, id ∈ s.accepted) ∧
        (s.sent 1).Pairwise (fun one two => s.position one < s.position two) ∧
          (s.htlcStream = some 1 → ∀ id ∈ s.inflightIds, id ∈ s.sent 1) := by
  have subscribed := (reachable_start 100 0).step (.subscribe 0 rfl rfl (.inl rfl))
  have first := ((subscribed.step (.call "1" sampleAccepted (by decide))).step
    (.enqueue (.head _) (by decide))).step (.take rfl rfl)
  have sent := (first.step (.sampleStream rfl rfl)).step (.deliver rfl rfl)
  have second := ((sent.step (.call "2" sampleAccepted (by decide))).step
    (.enqueue (.head _) (by decide))).step (.take rfl rfl)
  have both := (second.step (.sampleStream rfl rfl)).step (.deliver rfl rfl)
  have gone := (both.step (.disconnect 0)).step (.remove 0 rfl rfl)
  have replayed := gone.step (.subscribe 1 rfl rfl (.inl rfl))
  exact ⟨_, replayed, rfl, by decide, sent_in_order replayed 1⟩

end Lspd.Plugin
