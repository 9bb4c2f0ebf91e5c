import Lspd.Lnd.Subscribed
import Lspd.Process.Counting

/-! No call is woken without an event: every subscription gets each event of its topic
once, and the signal of a call comes from one of its own subscriptions. -/

namespace Lspd.Lnd

open Lspd.Lightning Lspd.Process Lspd.Store

namespace LndClient

section Exact

/-- Both maps of subscribers are served exactly. -/
def Exact (s : LndClient) : Prop := ∀ kind, (s.hubs kind).Exact

variable {s t : LndClient} {kind : Kind} {n k index : Nat} {hub : Hub String (Nat × Nat)}
  {topics : List String}

theorem exact_subscribeAll (counts : hub.Exact) (free : hub.Free) :
    (subscribeAll hub n index k topics).Exact := by
  induction topics generalizing hub k with
  | nil => exact counts
  | cons topic topics more => exact more (counts.subscribe free (index + k)) free

theorem Exact.setHub (counts : s.Exact) (own : hub.Exact) : (s.setHub kind hub).Exact := by
  intro other
  rw [hubs_setHub]
  split_ifs
  · exact own
  · exact counts other

theorem Exact.subscribe (counts : s.Exact) (free : s.Free) :
    (s.subscribe kind n topics).Exact :=
  counts.setHub (exact_subscribeAll (counts kind) (free kind))

theorem Exact.step {action : Action} (inv : s.Inv) (counts : s.Exact) (step : Step s action t) :
    t.Exact := by
  cases step with
  | waitOnline n peerID here free => exact counts.subscribe free
  | waitChannelActive n points here _ free => exact counts.subscribe free
  | returnEarly | settle | wait | deadline | active | closeSignal | forward | finish => exact counts
  | online n here found queued => exact counts.setHub ((counts .peer).take found queued)
  | unsubscribe kind n k here found free => exact counts.setHub ((counts kind).unsubscribe found)
  | closeFeed kind n k here found => exact counts.setHub ((counts kind).close found)
  | receive n k here found queued => exact counts.setHub ((counts .chan).take found queued)
  | hear kind event here known => exact counts.setHub ((counts kind).hear here)
  | lock kind here order => exact counts.setHub ((counts kind).lock (inv.sound kind) here order)
  | deliver kind here found opened room =>
    exact counts.setHub ((counts kind).deliver (inv.sound kind) here found)
  | unlock kind here => exact counts.setHub ((counts kind).unlock here)

theorem Exact.reachable (reached : machine.Reachable s) : s.Exact := by
  refine reached.induct Exact ?_ fun _ _ _ before counts taken =>
    counts.step (Inv.reachable before) taken
  rintro _ rfl _
  exact Hub.empty_exact

end Exact

section Honest

/-- A message was taken from the channel. -/
def Took (s : LndClient) (n k : Nat) : Prop :=
  ∃ feed, (s.hubs .chan).feeds (n, k) = some feed ∧ 0 < feed.taken

/-- A forwarder holds, and a signal has, only what was taken from a channel of the call. -/
structure Honest (s : LndClient) : Prop where
  held : ∀ n k, s.forwarders (n, k) = .holding → s.Took n k
  signalled : ∀ n, 0 < (s.signals n).queued → ∃ k, s.Took n k

variable {s t : LndClient} {kind : Kind} {n k : Nat} {hub : Hub String (Nat × Nat)}
  {ref : Nat × Nat} {feed after : Feed String} {topics : List String}

theorem Took.setHub (took : s.Took n k)
    (grows : ∀ feed, (s.hubs kind).feeds (n, k) = some feed →
      ∃ after, hub.feeds (n, k) = some after ∧ feed.taken ≤ after.taken) :
    (s.setHub kind hub).Took n k := by
  obtain ⟨feed, found, positive⟩ := took
  rw [Took, hubs_setHub]
  split_ifs with here
  · subst here
    obtain ⟨after, now, more⟩ := grows feed found
    exact ⟨after, now, Nat.lt_of_lt_of_le positive more⟩
  · exact ⟨feed, found, positive⟩

theorem Took.setFeed (took : s.Took n k) (found : (s.hubs kind).feeds ref = some feed)
    (feeds : hub.feeds = ((s.hubs kind).setFeed ref after).feeds)
    (more : feed.taken ≤ after.taken) : (s.setHub kind hub).Took n k := by
  refine took.setHub fun before here => ?_
  rw [feeds, Hub.feeds_setFeed]
  split_ifs with own
  · subst own
    obtain rfl := Option.some.inj (here.symm.trans found)
    exact ⟨after, rfl, more⟩
  · exact ⟨before, here, Nat.le_refl _⟩

theorem Took.subscribe {m : Nat} (took : s.Took n k)
    (unused : ∀ j, (s.hubs kind).feeds (m, j) = none) : (s.subscribe kind m topics).Took n k := by
  refine took.setHub fun feed found => ⟨feed, ?_, Nat.le_refl _⟩
  have other : n ≠ m := by
    rintro rfl
    cases (unused k).symm.trans found
  rwa [feeds_subscribeAll_of_ne (.inl other)]

/-- What was taken stays taken. -/
theorem Took.step {action : Action} (inv : s.Inv) (took : s.Took n k) (step : Step s action t) :
    t.Took n k := by
  cases step with
  | waitOnline n peerID here free => exact took.subscribe (unused_of_idle inv.linked here)
  | waitChannelActive n points here _ free =>
    exact took.subscribe (unused_of_idle inv.linked here)
  | returnEarly | settle | wait | deadline | active | closeSignal | forward | finish => exact took
  | online n here found queued => exact took.setFeed found rfl (Nat.le_succ _)
  | unsubscribe kind n k here found free => exact took.setFeed found rfl (Nat.le_refl _)
  | closeFeed kind n k here found => exact took.setFeed found rfl (Nat.le_refl _)
  | receive n k here found queued => exact took.setFeed found rfl (Nat.le_succ _)
  | deliver kind here found opened room => exact took.setFeed found rfl (Nat.le_refl _)
  | hear | lock | unlock => exact took.setHub fun feed found => ⟨feed, found, Nat.le_refl _⟩

/-- A forwarder holds what it held before, or what it has just received. -/
theorem holding_of_step {action : Action} (step : Step s action t)
    (holding : t.forwarders (n, k) = .holding) : s.forwarders (n, k) = .holding ∨ t.Took n k := by
  cases step with
  | receive m j here found queued =>
    by_cases own : (n, k) = (m, j)
    · obtain ⟨rfl, rfl⟩ := Prod.mk.inj own
      rename_i feed
      refine .inr ⟨{ feed with queued := feed.queued - 1, taken := feed.taken + 1 }, ?_,
        Nat.succ_pos feed.taken⟩
      simp only [hubs_setHub, if_true, Hub.take, Hub.feeds_setFeed]
    · exact .inl (by simpa [Function.update_of_ne own] using holding)
  | forward m j here opened room =>
    by_cases own : (n, k) = (m, j)
    · simp [own] at holding
    · exact .inl (by simpa [Function.update_of_ne own] using holding)
  | finish m j here found closed drained =>
    by_cases own : (n, k) = (m, j)
    · simp [own] at holding
    · exact .inl (by simpa [Function.update_of_ne own] using holding)
  | _ => exact .inl holding

/-- A signal has what it had before, or what a forwarder of its call held. -/
theorem queued_of_step {action : Action} (step : Step s action t)
    (queued : 0 < (t.signals n).queued) :
    0 < (s.signals n).queued ∨ ∃ k, s.forwarders (n, k) = .holding := by
  cases step with
  | active m here ready =>
    by_cases own : n = m
    · exact .inl (own ▸ ready)
    · exact .inl (by simpa [Function.update_of_ne own] using queued)
  | closeSignal m here =>
    by_cases own : n = m
    · subst own
      exact .inl (by simpa using queued)
    · exact .inl (by simpa [Function.update_of_ne own] using queued)
  | forward m j here opened room =>
    by_cases own : n = m
    · exact .inr ⟨j, own ▸ here⟩
    · exact .inl (by simpa [Function.update_of_ne own] using queued)
  | _ => exact .inl queued

theorem Honest.step {action : Action} (inv : s.Inv) (honest : s.Honest) (step : Step s action t) :
    t.Honest := by
  constructor
  · intro n k holding
    rcases holding_of_step step holding with before | took
    · exact (honest.held n k before).step inv step
    · exact took
  · intro n queued
    rcases queued_of_step step queued with before | ⟨k, holding⟩
    · obtain ⟨k, took⟩ := honest.signalled n before
      exact ⟨k, took.step inv step⟩
    · exact ⟨k, (honest.held n k holding).step inv step⟩

theorem Honest.reachable (reached : machine.Reachable s) : s.Honest := by
  refine reached.induct Honest ?_ fun _ _ _ before honest taken =>
    honest.step (Inv.reachable before) taken
  rintro _ rfl
  exact ⟨nofun, nofun⟩

end Honest

section Results

variable {s : LndClient} {kind : Kind} {n k : Nat} {topics : List String} {feed : Feed String}

/-- The case of the `select` that returns `nil` can be taken. -/
def Ready (s : LndClient) : Kind → Nat → Prop
  | .peer, n => ∃ feed, (s.hubs .peer).feeds (n, 0) = some feed ∧ 0 < feed.queued
  | .chan, n => 0 < (s.signals n).queued

/-- An event of the topic was processed after the subscription, or is being sent and this
subscriber has got it. -/
def Occurred (s : LndClient) (kind : Kind) (ref : Nat × Nat) (feed : Feed String) : Prop :=
  feed.since < (s.hubs kind).processed feed.topic ∨
    ∃ left, (s.hubs kind).listener = .holding feed.topic left ∧ ref ∉ left

theorem Inv.topic_of_selecting (inv : s.Inv) (here : s.calls (kind, n) = .selecting topics)
    (found : (s.hubs kind).feeds (n, k) = some feed) :
    topics[k]? = some feed.topic ∧ feed.subscribed = true := by
  have shaped := inv.linked kind n k
  rw [here, found, Option.map_some, CallPhase.shape, eq_comm, Option.map_eq_some_iff] at shaped
  obtain ⟨topic, listed, same⟩ := shaped
  simp only [shape, Prod.mk.injEq] at same
  exact ⟨same.1 ▸ listed, same.2.1.symm⟩

/-- A message was put into one of the channels of a call whose `select` is ready. -/
theorem Honest.sent (honest : s.Honest) (ready : s.Ready kind n) :
    ∃ k feed, (s.hubs kind).feeds (n, k) = some feed ∧ 0 < feed.queued + feed.taken := by
  cases kind with
  | peer =>
    obtain ⟨feed, found, queued⟩ := ready
    exact ⟨0, feed, found, Nat.add_pos_left queued _⟩
  | chan =>
    obtain ⟨k, feed, found, taken⟩ := honest.signalled n ready
    exact ⟨k, feed, found, Nat.add_pos_right _ taken⟩

/-- In every run each subscription that is not taken back was sent exactly the events of
its topic since it was made, one message for each, however the listeners, the forwarders
and the calls interleave. So `WaitOnline` and `WaitChannelActive` are not woken by the
event of another topic or by one from before the call. -/
theorem sent_once_and_occurred (reached : machine.Reachable s) :
    (∀ kind ref feed, (s.hubs kind).feeds ref = some feed → feed.subscribed = true →
      feed.since + (feed.queued + feed.taken) =
        (s.hubs kind).processed feed.topic + (s.hubs kind).sending ref feed.topic) ∧
      ∀ kind n topics, s.calls (kind, n) = .selecting topics → s.Ready kind n →
        ∃ k feed, (s.hubs kind).feeds (n, k) = some feed ∧ topics[k]? = some feed.topic ∧
          s.Occurred kind (n, k) feed := by
  have counts := Exact.reachable reached
  refine ⟨fun kind => (counts kind).counted, ?_⟩
  intro kind n topics here ready
  obtain ⟨k, feed, found, positive⟩ := (Honest.reachable reached).sent ready
  obtain ⟨listed, subscribed⟩ := (Inv.reachable reached).topic_of_selecting here found
  exact ⟨k, feed, found, listed, (counts kind).happened found subscribed positive⟩

/-- The second channel of two becomes active while the call waits. -/
theorem sent_once_and_occurred_sample :
    ∃ s, machine.Reachable s ∧ s.calls (.chan, 0) = .selecting ["a:0", "b:1"] ∧ s.Ready .chan 0 ∧
      ∃ k feed, (s.hubs .chan).feeds (0, k) = some feed ∧
        ["a:0", "b:1"][k]? = some feed.topic ∧ s.Occurred .chan (0, k) feed := by
  have idle : machine.Reachable initial := .start rfl
  have subscribed := idle.step
    (.waitChannelActive 0 ["a:0", "b:1"] rfl nofun fun _ _ _ held => nomatch held)
  have selecting := subscribed.step (.wait .chan 0 rfl)
  have heard := selecting.step (.hear .chan (.activeChannel ⟨"b", [], 1⟩) rfl rfl)
  have locked := heard.step (.lock .chan rfl (.refl _))
  have sent := locked.step (.deliver .chan rfl rfl rfl (Nat.zero_lt_succ 9))
  have received := sent.step (.receive 0 1 rfl rfl (Nat.zero_lt_succ 0))
  have forwarded := received.step (.forward 0 1 rfl rfl (Nat.zero_lt_succ 9))
  have here := (sent_once_and_occurred forwarded).2 .chan 0 ["a:0", "b:1"] rfl (Nat.zero_lt_succ 0)
  exact ⟨_, forwarded, rfl, Nat.zero_lt_succ 0, here⟩

end Results

end LndClient

end Lspd.Lnd
