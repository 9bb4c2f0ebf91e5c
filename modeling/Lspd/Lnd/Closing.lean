import Lspd.Lnd.Subscribed

/-! `WaitChannelActive` closes its signal while its forwarders may still have messages
for it. -/

namespace Lspd.Lnd

open Lspd.Process

namespace LndClient

/-- A forwarder or a listener is about to send on a channel that is closed. -/
def SendsOnClosed (s : LndClient) : Prop :=
  (∃ n k, s.forwarders (n, k) = .holding ∧ (s.signals n).closed = true) ∨
    ∃ kind topic ref left feed, (s.hubs kind).listener = .holding topic (ref :: left) ∧
      (s.hubs kind).feeds ref = some feed ∧ feed.closed = true

/-- The forwarders of a call hold no message, and there is none for them. -/
def Drained (s : LndClient) (n : Nat) : Prop :=
  ∀ k, s.forwarders (n, k) ≠ .holding ∧
    ∀ feed, (s.hubs .chan).feeds (n, k) = some feed → feed.queued = 0

/-- A call closes its signal only when its forwarders are done. -/
def Orderly (s : LndClient) : Action → Prop
  | .closeSignal n => s.Drained n
  | _ => True

/-- Once its signal is closed, a call has returned and its forwarders have nothing to send. -/
def Sealed (s : LndClient) : Prop :=
  ∀ n, (s.signals n).closed = true →
    s.Drained n ∧ ∃ topics, s.calls (.chan, n) = .returning topics []

variable {s t : LndClient} {kind : Kind} {n m k : Nat} {hub : Hub String (Nat × Nat)}
  {phase : CallPhase} {topics : List String} {feed after : Feed String} {action : Action}

/-- The listeners send to subscribers, whose channels are open. -/
theorem Inv.listener_sends_open (inv : s.Inv) {topic : String} {ref : Nat × Nat}
    {left : List (Nat × Nat)} (here : (s.hubs kind).listener = .holding topic (ref :: left))
    (found : (s.hubs kind).feeds ref = some feed) : feed.closed = false := by
  have subscribed := (inv.sound kind).subscribed_of_left here (List.mem_cons_self ..) found
  exact ((inv.sound kind).served ref feed found subscribed).opened

theorem Drained.setHub (drained : s.Drained n)
    (fewer : kind = .chan → ∀ k after, hub.feeds (n, k) = some after →
      ∃ feed, (s.hubs kind).feeds (n, k) = some feed ∧ after.queued ≤ feed.queued) :
    (s.setHub kind hub).Drained n := by
  intro k
  refine ⟨(drained k).1, fun after found => ?_⟩
  rw [hubs_setHub] at found
  split_ifs at found with here
  · obtain ⟨feed, before, less⟩ := fewer here.symm k after found
    rw [← here] at before
    exact Nat.le_zero.mp ((drained k).2 feed before ▸ less)
  · exact (drained k).2 after found

/-- A step of a call that has not returned leaves the others where they are. -/
theorem returned_setCall (here : ∀ topics, s.calls (kind, m) ≠ .returning topics [])
    (returned : s.calls (.chan, n) = .returning topics []) :
    (s.setCall kind m phase).calls (.chan, n) = .returning topics [] := by
  rw [calls_setCall]
  split_ifs with own
  · exact absurd (own ▸ returned) (here topics)
  · exact returned

theorem Sealed.frame (sealed : s.Sealed)
    (closed : ∀ n, (t.signals n).closed = true → (s.signals n).closed = true)
    (kept : ∀ n topics, s.Drained n → s.calls (.chan, n) = .returning topics [] →
      t.Drained n ∧ t.calls (.chan, n) = .returning topics []) : t.Sealed := by
  intro n now
  obtain ⟨drained, topics, returned⟩ := sealed n (closed n now)
  obtain ⟨drained, returned⟩ := kept n topics drained returned
  exact ⟨drained, topics, returned⟩

theorem Sealed.setCall (sealed : s.Sealed) (here : ∀ topics, s.calls (kind, m) ≠ .returning topics []) :
    (s.setCall kind m phase).Sealed :=
  sealed.frame (fun _ now => now) fun _ _ drained returned =>
    ⟨drained, returned_setCall here returned⟩

theorem Sealed.setHub (sealed : s.Sealed)
    (fewer : kind = .chan → ∀ n topics, s.calls (.chan, n) = .returning topics [] →
      ∀ k after, hub.feeds (n, k) = some after →
        ∃ feed, (s.hubs kind).feeds (n, k) = some feed ∧ after.queued ≤ feed.queued) :
    (s.setHub kind hub).Sealed :=
  sealed.frame (fun _ now => now) fun n topics drained returned =>
    ⟨drained.setHub fun here => fewer here n topics returned, returned⟩

theorem queued_setFeed {hub : Hub String (Nat × Nat)} {ref wanted : Nat × Nat} {found : Feed String}
    (here : hub.feeds ref = some feed) (at_ : (hub.setFeed ref after).feeds wanted = some found)
    (fewer : after.queued ≤ feed.queued) :
    ∃ feed, hub.feeds wanted = some feed ∧ found.queued ≤ feed.queued :=
  Hub.exists_of_setFeed (fun one two => two.queued ≤ one.queued) (fun _ => Nat.le_refl _) here at_ fewer

/-- The subscriptions of a call that has returned are gone. -/
theorem Inv.unsubscribed_of_returned (inv : s.Inv)
    (returned : s.calls (kind, n) = .returning topics [])
    (found : (s.hubs kind).feeds (n, k) = some feed) : feed.subscribed = false := by
  rw [(shape_of_returning inv.linked returned found).2.1]
  rfl

theorem Sealed.subscribe (sealed : s.Sealed) (here : s.calls (kind, n) = .idle) :
    (s.subscribe kind n topics).Sealed := by
  refine Sealed.setCall (sealed.setHub ?_) fun _ => by simp [here]
  rintro rfl m others returned k after found
  have other : m ≠ n := by
    rintro rfl
    rw [here] at returned
    cases returned
  rw [feeds_subscribeAll_of_ne (.inl other)] at found
  exact ⟨after, found, Nat.le_refl _⟩

theorem Sealed.receive (sealed : s.Sealed) (found : (s.hubs .chan).feeds (n, k) = some feed)
    (queued : 0 < feed.queued) :
    LndClient.Sealed { s.setHub .chan ((s.hubs .chan).take (n, k) feed) with
      forwarders := Function.update s.forwarders (n, k) .holding } := by
  refine sealed.frame (fun _ now => now) fun m others drained returned => ⟨fun j => ?_, returned⟩
  have other : (m, j) ≠ (n, k) := by
    intro own
    obtain ⟨rfl, rfl⟩ := Prod.mk.inj own
    exact Nat.ne_of_gt queued ((drained j).2 feed found)
  have taken : (s.setHub .chan ((s.hubs .chan).take (n, k) feed)).Drained m :=
    drained.setHub fun _ _ _ at_ => queued_setFeed found at_ (Nat.sub_le ..)
  refine ⟨?_, (taken j).2⟩
  simpa [Function.update_of_ne other] using (drained j).1

theorem Sealed.setQueued (sealed : s.Sealed) (count : Nat) :
    LndClient.Sealed { s with
      signals := Function.update s.signals n { s.signals n with queued := count } } := by
  refine sealed.frame (fun m now => ?_) fun _ _ drained returned => ⟨drained, returned⟩
  simp only [Function.update_apply] at now
  split_ifs at now with own
  · rwa [own]
  · exact now

theorem Sealed.forwarder {forwarder : Forwarder} (sealed : s.Sealed) (free : forwarder ≠ .holding) :
    LndClient.Sealed { s with forwarders := Function.update s.forwarders (n, k) forwarder } := by
  refine sealed.frame (fun _ now => now) fun m others drained returned =>
    ⟨fun j => ⟨?_, (drained j).2⟩, returned⟩
  simp only [Function.update_apply]
  split_ifs
  · exact free
  · exact (drained j).1

theorem Sealed.deliver {topic : String} {ref : Nat × Nat} {left : List (Nat × Nat)} (inv : s.Inv)
    (sealed : s.Sealed) (here : (s.hubs kind).listener = .holding topic (ref :: left))
    (found : (s.hubs kind).feeds ref = some feed) :
    (s.setHub kind ((s.hubs kind).deliver topic ref feed left)).Sealed := by
  refine sealed.setHub ?_
  rintro rfl m others returned j after at_
  have other : (m, j) ≠ ref := by
    rintro rfl
    have subscribed := (inv.sound .chan).subscribed_of_left here (List.mem_cons_self ..) found
    rw [inv.unsubscribed_of_returned returned found] at subscribed
    cases subscribed
  rw [Hub.deliver, Hub.feeds_setFeed, if_neg other] at at_
  exact ⟨after, at_, Nat.le_refl _⟩

/-- A call closes its signal as the last thing it does. -/
theorem Sealed.closeSignal {rest : List Deferred} (inv : s.Inv) (sealed : s.Sealed)
    (drained : s.Drained n) (here : s.calls (.chan, n) = .returning topics (.closeSignal :: rest)) :
    LndClient.Sealed { s.setCall .chan n (.returning topics rest) with
      signals := Function.update s.signals n { s.signals n with closed := true } } := by
  have last : rest = [] := by
    have ordered := List.pairwise_cons.mp (inv.ordered_of_returning here)
    exact List.eq_nil_iff_forall_not_mem.mpr ordered.1
  subst last
  intro m now
  by_cases own : m = n
  · subst own
    refine ⟨drained, topics, ?_⟩
    simp
  · have before : (s.signals m).closed = true := by simpa [Function.update_of_ne own] using now
    obtain ⟨drained, others, returned⟩ := sealed m before
    exact ⟨drained, others, returned_setCall (fun _ => by simp [here]) returned⟩

theorem Sealed.step (inv : s.Inv) (sealed : s.Sealed) (orderly : s.Orderly action)
    (step : Step s action t) : t.Sealed := by
  cases step with
  | waitOnline n peerID here free => exact sealed.subscribe here
  | returnEarly n here => exact sealed.setCall fun _ => by simp [here]
  | waitChannelActive n points here _ free => exact sealed.subscribe here
  | settle kind n here => exact sealed.setCall fun _ => by simp [here]
  | wait kind n here => exact sealed.setCall fun _ => by simp [here]
  | deadline kind n here => exact sealed.setCall fun _ => by simp [here]
  | online n here found queued =>
    refine Sealed.setCall (sealed.setHub ?_) fun _ => by simp [here]
    intro chan
    cases chan
  | @active topics n here queued =>
    have left : (s.leave .chan n topics).Sealed := sealed.setCall fun _ => by simp [here]
    exact left.setQueued _
  | unsubscribe kind n k here found free =>
    refine Sealed.setCall (sealed.setHub fun _ _ _ _ _ _ at_ => ?_) fun _ => by simp [here]
    exact queued_setFeed found at_ (Nat.le_refl _)
  | closeFeed kind n k here found =>
    refine Sealed.setCall (sealed.setHub fun _ _ _ _ _ _ at_ => ?_) fun _ => by simp [here]
    exact queued_setFeed found at_ (Nat.le_refl _)
  | closeSignal n here => exact sealed.closeSignal inv orderly here
  | receive n k here found queued => exact sealed.receive found queued
  | forward n k here opened room =>
    have sent : LndClient.Sealed { s with
        forwarders := Function.update s.forwarders (n, k) .waiting } := sealed.forwarder (by decide)
    exact sent.setQueued _
  | finish n k here found closed drained =>
    exact sealed.forwarder (by decide)
  | hear kind event here known =>
    exact sealed.setHub fun _ _ _ _ _ after at_ => ⟨after, at_, Nat.le_refl _⟩
  | lock kind here order =>
    exact sealed.setHub fun _ _ _ _ _ after at_ => ⟨after, at_, Nat.le_refl _⟩
  | deliver kind here found opened room => exact sealed.deliver inv here found
  | unlock kind here => exact sealed.setHub fun _ _ _ _ _ after at_ => ⟨after, at_, Nat.le_refl _⟩

theorem Sealed.reachable (reached : machine.ReachableWhen Orderly s) : s.Sealed := by
  refine reached.induct Sealed ?_ fun _ _ _ before sealed orderly taken =>
    sealed.step (Inv.reachable before) orderly taken
  rintro _ rfl n closed
  cases closed

/-- A forwarder ends when its channel is closed and empty, and it stays so. -/
def Finished (s : LndClient) : Prop :=
  ∀ n k, s.forwarders (n, k) = .ended →
    ∃ feed, (s.hubs .chan).feeds (n, k) = some feed ∧ feed.closed = true ∧ feed.queued = 0

theorem Finished.setHub (finished : s.Finished)
    (kept : kind = .chan → ∀ n k feed, s.forwarders (n, k) = .ended →
      (s.hubs kind).feeds (n, k) = some feed → feed.closed = true → feed.queued = 0 →
      ∃ after, hub.feeds (n, k) = some after ∧ after.closed = true ∧ after.queued = 0) :
    (s.setHub kind hub).Finished := by
  intro n k ended
  obtain ⟨feed, found, closed, empty⟩ := finished n k ended
  rw [hubs_setHub]
  split_ifs with here
  · subst here
    exact kept rfl n k feed ended found closed empty
  · exact ⟨feed, found, closed, empty⟩

theorem Finished.setFeed {ref : Nat × Nat} (finished : s.Finished)
    (feeds : hub.feeds = ((s.hubs kind).setFeed ref after).feeds)
    (here : (s.hubs kind).feeds ref = some feed)
    (own : kind = .chan → s.forwarders ref = .ended → feed.closed = true → feed.queued = 0 →
      after.closed = true ∧ after.queued = 0) :
    (s.setHub kind hub).Finished := by
  refine finished.setHub fun chan n k before ended found closed empty => ?_
  rw [feeds, Hub.feeds_setFeed]
  split_ifs with same
  · subst same
    obtain rfl := Option.some.inj (here.symm.trans found)
    exact ⟨after, rfl, own chan ended closed empty⟩
  · exact ⟨before, found, closed, empty⟩

theorem Finished.subscribe (inv : s.Inv) (finished : s.Finished)
    (here : s.calls (kind, n) = .idle) : (s.subscribe kind n topics).Finished := by
  refine finished.setHub fun chan m k feed ended found closed empty => ⟨feed, ?_, closed, empty⟩
  have other : m ≠ n := by
    rintro rfl
    rw [unused_of_idle inv.linked here] at found
    cases found
  rw [feeds_subscribeAll_of_ne (.inl other)]
  exact found

theorem Finished.forwarder {forwarder : Forwarder} (finished : s.Finished)
    (ended : forwarder = .ended →
      ∃ feed, (s.hubs .chan).feeds (n, k) = some feed ∧ feed.closed = true ∧ feed.queued = 0) :
    LndClient.Finished { s with forwarders := Function.update s.forwarders (n, k) forwarder } := by
  intro m j now
  simp only [Function.update_apply] at now
  split_ifs at now with own
  · obtain ⟨rfl, rfl⟩ := Prod.mk.inj own
    exact ended now
  · exact finished m j now

theorem Finished.step (inv : s.Inv) (finished : s.Finished) (step : Step s action t) :
    t.Finished := by
  cases step with
  | waitOnline n peerID here free => exact finished.subscribe inv here
  | waitChannelActive n points here _ free => exact finished.subscribe inv here
  | returnEarly n here => exact finished
  | settle kind n here => exact finished
  | wait kind n here => exact finished
  | deadline kind n here => exact finished
  | active n here queued => exact finished
  | closeSignal n here => exact finished
  | online n here found queued => exact finished.setFeed rfl found (by simp)
  | unsubscribe kind n k here found free =>
    exact finished.setFeed rfl found fun _ _ closed empty => ⟨closed, empty⟩
  | closeFeed kind n k here found =>
    exact finished.setFeed rfl found fun _ _ _ empty => ⟨rfl, empty⟩
  | @receive feed n k here found queued =>
    have taken : (s.setHub .chan ((s.hubs .chan).take (n, k) feed)).Finished :=
      finished.setFeed rfl found fun _ ended => by simp [here] at ended
    exact taken.forwarder (by simp)
  | forward n k here opened room =>
    have waits : LndClient.Finished { s with
        forwarders := Function.update s.forwarders (n, k) .waiting } := finished.forwarder (by simp)
    exact waits
  | finish n k here found closed drained =>
    exact finished.forwarder fun _ => ⟨_, found, closed, drained⟩
  | hear kind event here known => exact finished.setHub fun _ _ _ _ _ found closed empty =>
      ⟨_, found, closed, empty⟩
  | lock kind here order => exact finished.setHub fun _ _ _ _ _ found closed empty =>
      ⟨_, found, closed, empty⟩
  | deliver kind here found opened room =>
    exact finished.setFeed rfl found fun _ _ closed => by simp [opened] at closed
  | unlock kind here => exact finished.setHub fun _ _ _ _ _ found closed empty =>
      ⟨_, found, closed, empty⟩

theorem Finished.reachable (reached : machine.Reachable s) : s.Finished := by
  refine reached.induct Finished ?_ fun _ _ _ before finished taken =>
    finished.step (Inv.reachable before) taken
  rintro _ rfl n k ended
  cases ended

/-- No goroutine sends on a closed channel in a run in which calls close their signals
only once their forwarders are done. Where a call does so earlier, a run goes on to a
forwarder that sends on the closed signal. -/
theorem sends_on_closed_unless_orderly (s : LndClient) :
    (machine.ReachableWhen Orderly s → ¬ s.SendsOnClosed) ∧
      ∀ n t, machine.Reachable s → Step s (.closeSignal n) t → ¬ s.Drained n →
        ∃ u, machine.Reaches t u ∧ u.SendsOnClosed := by
  constructor
  · rintro reached (⟨n, k, holding, closed⟩ | ⟨kind, topic, ref, left, feed, here, found, closed⟩)
    · exact ((Sealed.reachable reached n closed).1 k).1 holding
    · have opened := (Inv.reachable reached.reachable).listener_sends_open here found
      rw [opened] at closed
      cases closed
  · intro n t reached step undone
    cases step with
    | closeSignal _ here =>
      simp only [Drained, not_forall, not_and_or, not_not] at undone
      obtain ⟨k, holding | ⟨feed, found, queued⟩⟩ := undone
      · exact ⟨_, .refl, .inl ⟨n, k, holding, by simp⟩⟩
      · have positive := Nat.pos_of_ne_zero queued
        cases forwarder : s.forwarders (n, k) with
        | waiting =>
          -- what a closed channel still holds is received from it
          refine ⟨_, .single ⟨_, trivial, .receive n k forwarder found positive⟩, .inl ⟨n, k, ?_⟩⟩
          simp [LndClient.setHub]
        | holding => exact ⟨_, .refl, .inl ⟨n, k, forwarder, by simp⟩⟩
        | ended =>
          obtain ⟨twin, twice, _, empty⟩ := Finished.reachable reached n k forwarder
          obtain rfl := Option.some.inj (found.symm.trans twice)
          exact absurd empty queued

/-- The event that the first output of a transaction is an active channel. -/
private def sampleEvent : NodeEvent :=
  .activeChannel ⟨"4a5e1e4baab89f3a32518a88c31bc87f618f76673e2cc77ab2127b7afdeda33b", [], 0⟩

private def samplePoint : String :=
  "4a5e1e4baab89f3a32518a88c31bc87f618f76673e2cc77ab2127b7afdeda33b:0"

private theorem topic_sampleEvent : Kind.chan.topic sampleEvent = some samplePoint := by decide +kernel

/-- The channel becomes active while the call looks up the channels again. The forwarder
still has the message when the call has closed its signal. -/
theorem forwarder_sends_on_closed : ∃ s, machine.Reachable s ∧ s.SendsOnClosed := by
  have idle : machine.Reachable initial := .start rfl
  have subscribed := idle.step (.waitChannelActive 0 [samplePoint] rfl (by simp) nofun)
  have heard := subscribed.step (.hear .chan sampleEvent rfl topic_sampleEvent)
  have locked := heard.step (.lock .chan rfl (.refl _))
  have sent := locked.step (.deliver .chan rfl rfl rfl (Nat.zero_lt_succ 9))
  have unlocked := sent.step (.unlock .chan rfl)
  have settled := unlocked.step (.settle .chan 0 rfl)
  have received := settled.step (.receive 0 0 rfl rfl Nat.zero_lt_one)
  have unsubscribed := received.step (.unsubscribe .chan 0 0 rfl rfl
    (by rintro (_ | _) _ _ held <;> cases held))
  have closed := unsubscribed.step (.closeFeed .chan 0 0 rfl rfl)
  have sealed := closed.step (.closeSignal 0 rfl)
  exact ⟨_, sealed, .inl ⟨0, 0, rfl, rfl⟩⟩

/-- The call has the message before it returns. -/
theorem orderly_sample : ∃ s, machine.ReachableWhen Orderly s ∧ (s.signals 0).closed = true ∧
    ¬ s.SendsOnClosed := by
  have idle : machine.ReachableWhen Orderly initial := .start rfl
  have subscribed := idle.step (by exact trivial)
    (.waitChannelActive 0 [samplePoint] rfl (by simp) nofun)
  have heard := subscribed.step (by exact trivial) (.hear .chan sampleEvent rfl topic_sampleEvent)
  have locked := heard.step (by exact trivial) (.lock .chan rfl (.refl _))
  have sent := locked.step (by exact trivial) (.deliver .chan rfl rfl rfl (Nat.zero_lt_succ 9))
  have unlocked := sent.step (by exact trivial) (.unlock .chan rfl)
  have selecting := unlocked.step (by exact trivial) (.wait .chan 0 rfl)
  have received := selecting.step (by exact trivial) (.receive 0 0 rfl rfl Nat.zero_lt_one)
  have forwarded := received.step (by exact trivial) (.forward 0 0 rfl rfl (Nat.zero_lt_succ 9))
  have returning := forwarded.step (by exact trivial) (.active 0 rfl Nat.zero_lt_one)
  have unsubscribed := returning.step (by exact trivial) (.unsubscribe .chan 0 0 rfl rfl
    (by rintro (_ | _) _ _ held <;> cases held))
  have closed := unsubscribed.step (by exact trivial) (.closeFeed .chan 0 0 rfl rfl)
  have sealed := closed.step (by
    rintro (_ | k)
    · exact ⟨nofun, fun _ found => Option.some.inj found ▸ rfl⟩
    · exact ⟨nofun, nofun⟩) (.closeSignal 0 rfl)
  exact ⟨_, sealed, rfl, (sends_on_closed_unless_orderly _).1 sealed⟩

end LndClient

end Lspd.Lnd
