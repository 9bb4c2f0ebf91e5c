import Lspd.Lnd.Subscribed

/-! The listener for peers sends to its subscribers while it has `submtx`, which a
subscriber needs before it can go. -/

namespace Lspd.Lnd

open Lspd.Lightning Lspd.Process

/-- What a call of `WaitOnline` has: one subscription, and its deferred functions. -/
def CallPhase.Single : CallPhase → Prop
  | .idle => True
  | .checking topics | .selecting topics => topics.length = 1
  | .returning topics rest => topics.length = 1 ∧ rest <:+ deferred .peer 1

namespace LndClient

/-- The listener is blocked at the full channel of a subscriber that waits for `submtx`. -/
def Deadlocked (s : LndClient) : Prop :=
  ∃ n k topic left feed topics rest,
    (s.hubs .peer).listener = .holding topic ((n, k) :: left) ∧
      (s.hubs .peer).feeds (n, k) = some feed ∧ ¬ feed.queued < capacity ∧
      s.calls (.peer, n) = .returning topics (.unsubscribe k :: rest)

/-- The channels of all subscribers of a peer have room. -/
def Roomy (s : LndClient) (topic : String) : Prop :=
  ∀ ref ∈ (s.hubs .peer).subscribers topic, ∀ feed, (s.hubs .peer).feeds ref = some feed →
    feed.queued < capacity

/-- The listener takes `submtx` for an event only when no subscriber's channel is full. -/
def Unhurried (s : LndClient) : Action → Prop
  | .lock .peer topic => s.Roomy topic
  | _ => True

/-- The listener can send to everyone who is left. -/
def Unblocked (hub : Hub String (Nat × Nat)) : Prop :=
  ∀ topic left, hub.listener = .holding topic left → left.Nodup ∧
    ∀ ref ∈ left, ∀ feed, hub.feeds ref = some feed → feed.queued < capacity

variable {s t : LndClient} {kind : Kind} {n k : Nat} {hub : Hub String (Nat × Nat)}
  {topic : String} {topics : List String} {feed after : Feed String} {action : Action}
  {ref : Nat × Nat} {left : List (Nat × Nat)}

theorem Unblocked.of_free (free : hub.Free) : Unblocked hub :=
  fun topic left held => absurd held (free topic left)

theorem Unblocked.setFeed (unblocked : Unblocked hub) (here : hub.feeds ref = some feed)
    (fewer : after.queued ≤ feed.queued) : Unblocked (hub.setFeed ref after) := by
  intro topic left held
  obtain ⟨nodup, room⟩ := unblocked topic left held
  refine ⟨nodup, fun wanted member found at_ => ?_⟩
  rw [Hub.feeds_setFeed] at at_
  split_ifs at at_ with own
  · rw [← Option.some.inj at_]
    exact Nat.lt_of_le_of_lt fewer (room ref (own ▸ member) feed here)
  · exact room wanted member found at_

theorem Unblocked.deliver (unblocked : Unblocked hub)
    (held : hub.listener = .holding topic (ref :: left)) :
    Unblocked (hub.deliver topic ref feed left) := by
  intro other rest same
  obtain ⟨rfl, rfl⟩ := Listener.holding.inj same
  obtain ⟨nodup, room⟩ := unblocked topic (ref :: left) held
  obtain ⟨absent, nodup⟩ := List.nodup_cons.mp nodup
  refine ⟨nodup, fun wanted member found at_ => ?_⟩
  have other : wanted ≠ ref := by
    rintro rfl
    exact absent member
  rw [Hub.deliver, Hub.feeds_setFeed, if_neg other] at at_
  exact room wanted (List.mem_cons_of_mem _ member) found at_

theorem unblocked_setHub (unblocked : Unblocked (s.hubs .peer)) (kept : kind = .peer → Unblocked hub) :
    Unblocked ((s.setHub kind hub).hubs .peer) := by
  rw [hubs_setHub]
  split_ifs with here
  · exact kept here.symm
  · exact unblocked

theorem free_subscribeAll {index : Nat} (free : hub.Free) :
    (subscribeAll hub n index k topics).Free := by
  intro topic left held
  rw [listener_subscribeAll] at held
  exact free topic left held

theorem unblocked_step (inv : s.Inv) (unblocked : Unblocked (s.hubs .peer))
    (unhurried : s.Unhurried action) (step : Step s action t) : Unblocked (t.hubs .peer) := by
  cases step with
  | waitOnline n peerID here free =>
    exact unblocked_setHub unblocked fun _ => .of_free (free_subscribeAll (free .peer))
  | returnEarly n here => exact unblocked
  | waitChannelActive n points here _ free =>
    exact unblocked_setHub unblocked fun _ => .of_free (free_subscribeAll (free .chan))
  | settle kind n here => exact unblocked
  | wait kind n here => exact unblocked
  | deadline kind n here => exact unblocked
  | online n here found queued =>
    exact unblocked_setHub unblocked fun _ => unblocked.setFeed found (Nat.sub_le ..)
  | active n here queued => exact unblocked
  | unsubscribe kind n k here found free =>
    exact unblocked_setHub unblocked fun _ => .of_free (free kind)
  | closeFeed kind n k here found =>
    refine unblocked_setHub unblocked ?_
    rintro rfl
    exact unblocked.setFeed found (Nat.le_refl _)
  | closeSignal n here => exact unblocked
  | receive n k here found queued => exact unblocked_setHub unblocked fun peer => nomatch peer
  | forward n k here opened room => exact unblocked
  | finish n k here found closed drained => exact unblocked
  | hear kind event here known => exact unblocked_setHub unblocked fun _ => .of_free nofun
  | @lock topic order kind here perm =>
    refine unblocked_setHub unblocked ?_
    rintro rfl topic' left held
    obtain ⟨rfl, rfl⟩ := Listener.holding.inj held
    refine ⟨perm.nodup_iff.mpr (Hub.nodup_subscribers (inv.sound .peer)), fun ref member => ?_⟩
    exact unhurried ref (perm.mem_iff.mp member)
  | deliver kind here found opened room =>
    refine unblocked_setHub unblocked ?_
    rintro rfl
    exact unblocked.deliver here
  | unlock kind here => exact unblocked_setHub unblocked fun _ => .of_free nofun

theorem unblocked_of_reachable (reached : machine.ReachableWhen Unhurried s) :
    Unblocked (s.hubs .peer) := by
  refine reached.induct (fun s => Unblocked (s.hubs .peer)) ?_ fun _ _ _ before unblocked may taken =>
    unblocked_step (Inv.reachable before) unblocked may taken
  rintro _ rfl
  exact .of_free nofun

section Full

theorem single_setCall {phase : CallPhase} (single : ∀ n, (s.calls (.peer, n)).Single)
    (kept : kind = .peer → phase.Single) (m : Nat) :
    ((s.setCall kind n phase).calls (.peer, m)).Single := by
  rw [calls_setCall]
  split_ifs with own
  · exact kept (Prod.mk.inj own).1.symm
  · exact single m

theorem single_setCall_chan (single : ∀ n, (s.calls (.peer, n)).Single) (n m : Nat)
    (phase : CallPhase) : ((s.setCall .chan n phase).calls (.peer, m)).Single := by
  rw [calls_setCall, if_neg (by simp)]
  exact single m

theorem single_leave (single : ∀ n, (s.calls (.peer, n)).Single)
    (here : s.calls (kind, n) = .checking topics ∨ s.calls (kind, n) = .selecting topics) (m : Nat) :
    ((s.leave kind n topics).calls (.peer, m)).Single := by
  refine single_setCall single ?_ m
  rintro rfl
  have one : topics.length = 1 := by
    have before := single n
    rcases here with here | here <;> rwa [here] at before
  rw [one]
  exact ⟨one, List.suffix_refl _⟩

theorem single_pop {rest : List Deferred} {first : Deferred}
    (single : ∀ n, (s.calls (.peer, n)).Single)
    (here : s.calls (kind, n) = .returning topics (first :: rest)) (own : kind = .peer) :
    (CallPhase.returning topics rest).Single := by
  subst own
  have before := single n
  rw [here] at before
  exact ⟨before.1, (List.suffix_cons first rest).trans before.2⟩

theorem single_step (single : ∀ n, (s.calls (.peer, n)).Single) (step : Step s action t) (n : Nat) :
    (t.calls (.peer, n)).Single := by
  cases step with
  | waitOnline m peerID here free =>
    have one : (CallPhase.checking [encodeToString peerID]).Single := rfl
    exact single_setCall single (fun _ => one) n
  | returnEarly m here => exact single_setCall_chan single m n _
  | waitChannelActive m points here _ free =>
    exact single_setCall_chan single m n (.checking points)
  | settle kind m here => exact single_leave single (.inl here) n
  | @wait topics kind m here =>
    refine single_setCall single ?_ n
    rintro rfl
    have before := single m
    rw [here] at before
    exact before
  | deadline kind m here => exact single_leave single (.inr here) n
  | online m here found queued => exact single_leave single (.inr here) n
  | active m here queued => exact single_leave single (.inr here) n
  | unsubscribe kind m k here found free => exact single_setCall single (single_pop single here) n
  | closeFeed kind m k here found => exact single_setCall single (single_pop single here) n
  | @closeSignal topics rest m here =>
    exact single_setCall_chan single m n (.returning topics rest)
  | receive | forward | finish | hear | lock | deliver | unlock => exact single n

theorem single_of_reachable (reached : machine.Reachable s) (n : Nat) :
    (s.calls (.peer, n)).Single := by
  refine reached.induct (fun s => ∀ n, (s.calls (.peer, n)).Single) ?_
    (fun _ _ _ _ single taken => single_step single taken) n
  rintro _ rfl _
  trivial

theorem deferred_of_single (one : topics.length = 1) (listed : topics[k]? = some topic) :
    deferred .peer topics.length = [.unsubscribe k, .closeFeed k] := by
  have below := (List.getElem?_eq_some_iff.mp listed).1
  obtain rfl : k = 0 := by omega
  rw [one]
  rfl

/-- A subscriber returns, and waits for `submtx`. -/
theorem returns_of_subscribed (reached : machine.Reachable s)
    (found : (s.hubs .peer).feeds (n, k) = some feed) (subscribed : feed.subscribed = true) :
    ∃ u, machine.Reaches s u ∧ u.hubs = s.hubs ∧
      ∃ topics rest, u.calls (.peer, n) = .returning topics (.unsubscribe k :: rest) := by
  have single := single_of_reachable reached n
  have listed := (Inv.reachable reached).subscribed_iff.mp ⟨feed, found, rfl, subscribed⟩
  have left (topics : List String) (one : topics.length = 1) (listed : topics[k]? = some feed.topic) :
      (s.leave .peer n topics).calls (.peer, n) =
        .returning topics [.unsubscribe k, .closeFeed k] := by
    rw [leave, calls_setCall, if_pos rfl, deferred_of_single one listed]
  cases here : s.calls (.peer, n) with
  | idle =>
    rw [here] at listed
    exact listed.elim
  | checking topics =>
    rw [here] at single listed
    exact ⟨_, .single ⟨_, trivial, .settle .peer n here⟩, rfl, _, _, left topics single listed⟩
  | selecting topics =>
    rw [here] at single listed
    exact ⟨_, .single ⟨_, trivial, .deadline .peer n here⟩, rfl, _, _, left topics single listed⟩
  | returning topics rest =>
    rw [here] at single listed
    obtain ⟨listed, pending⟩ := listed
    obtain ⟨one, suffix⟩ := single
    have whole : rest = [.unsubscribe k, .closeFeed k] := by
      rw [← one, deferred_of_single one listed] at suffix
      -- had it run any of its deferred functions, it would not be subscribed
      rcases List.suffix_cons_iff.mp suffix with whole | shorter
      · exact whole
      · exact absurd (shorter.subset pending) (by simp)
    exact ⟨s, .refl, rfl, topics, [.closeFeed k], by rw [here, whole]⟩

/-- The listener goes on until it is blocked at a full channel, whose owner may then
return. -/
theorem deadlocks_of_full (reached : machine.Reachable s)
    (held : (s.hubs .peer).listener = .holding topic left) (member : ref ∈ left)
    (found : (s.hubs .peer).feeds ref = some feed) (full : ¬ feed.queued < capacity) :
    ∃ u, machine.Reaches s u ∧ u.Deadlocked := by
  induction left generalizing s with
  | nil => cases member
  | cons first left more =>
    have inv := Inv.reachable reached
    obtain ⟨next, at_, _, subscribed⟩ := (inv.sound .peer).left topic _ first held (List.mem_cons_self ..)
    by_cases room : next.queued < capacity
    · -- the full channel is further back
      have other : ref ≠ first := by
        rintro rfl
        obtain rfl := Option.some.inj (found.symm.trans at_)
        exact full room
      have opened := ((inv.sound .peer).served first next at_ subscribed).opened
      have step : Step s .internal (s.setHub .peer ((s.hubs .peer).deliver topic first next left)) :=
        .deliver .peer held at_ opened room
      obtain ⟨u, run, deadlocked⟩ := more (reached.step step) (by rw [hubs_setHub, if_pos rfl]; rfl)
        (List.mem_of_ne_of_mem other member) (by
          rw [hubs_setHub, if_pos rfl, Hub.deliver, Hub.feeds_setFeed, if_neg other]
          exact found)
      exact ⟨u, .head ⟨_, trivial, step⟩ run, deadlocked⟩
    · obtain ⟨n, k⟩ := first
      obtain ⟨u, run, same, topics, rest, returning⟩ := returns_of_subscribed reached at_ subscribed
      refine ⟨u, run, n, k, topic, left, next, topics, rest, ?_, ?_, room, returning⟩
      · rw [same, held]
      · rw [same, at_]

end Full

/-- There is no deadlock in a run in which the listener takes `submtx` only when no
subscriber's channel is full. Where it does so otherwise, a run goes on to a deadlock. -/
theorem deadlocks_unless_unhurried (s : LndClient) :
    (machine.ReachableWhen Unhurried s → ¬ s.Deadlocked) ∧
      ∀ topic t, machine.Reachable s → Step s (.lock .peer topic) t → ¬ s.Roomy topic →
        ∃ u, machine.Reaches t u ∧ u.Deadlocked := by
  constructor
  · rintro reached ⟨n, k, topic, left, feed, topics, rest, held, found, full, _⟩
    obtain ⟨_, room⟩ := unblocked_of_reachable reached topic _ held
    exact full (room (n, k) (List.mem_cons_self ..) feed found)
  · intro topic t reached step tight
    have later := reached.step step
    cases step with
    | lock _ here perm =>
      simp only [Roomy, not_forall] at tight
      obtain ⟨ref, member, feed, found, full⟩ := tight
      exact deadlocks_of_full later rfl (perm.mem_iff.mpr member) found full

section Filling

/-- A call has subscribed, and a number of events have come since. -/
private structure Filled (peer : String) (count : Nat) (s : LndClient) : Prop where
  waits : (s.hubs .peer).listener = .waiting
  subscribed : (s.hubs .peer).subs peer = some [(0, (0, 0))]
  queued : ∃ feed, (s.hubs .peer).feeds (0, 0) = some feed ∧ feed.closed = false ∧ feed.queued = count

variable {peer : String} {count : Nat}

private theorem reaches_hub (reached : machine.Reachable s)
    (step : Step s action (s.setHub .peer hub)) : ∃ t, machine.Reachable t ∧ t.hubs .peer = hub :=
  ⟨_, reached.step step, by rw [hubs_setHub, if_pos rfl]⟩

/-- The listener hears of one more event and takes `submtx`. -/
private theorem Filled.lock (filled : Filled peer count s) (reached : machine.Reachable s) :
    ∃ t, machine.Reachable t ∧ t.hubs .peer = (s.hubs .peer).lock peer [(0, 0)] := by
  obtain ⟨heard, reached, hubHeard⟩ :=
    reaches_hub reached (.hear .peer (.peerOnline peer) filled.waits rfl)
  have subscribers : (heard.hubs .peer).subscribers peer = [(0, 0)] := by
    simp [hubHeard, Hub.hear, Hub.subscribers, filled.subscribed]
  obtain ⟨locked, reached, hubLocked⟩ :=
    reaches_hub reached (.lock .peer (by rw [hubHeard]; rfl) (.of_eq subscribers.symm))
  refine ⟨locked, reached, ?_⟩
  rw [hubLocked, hubHeard]
  rfl

private theorem Filled.next (filled : Filled peer count s) (reached : machine.Reachable s)
    (room : count < capacity) : ∃ t, machine.Reachable t ∧ Filled peer (count + 1) t := by
  obtain ⟨feed, found, opened, rfl⟩ := filled.queued
  obtain ⟨locked, reached, hubLocked⟩ := filled.lock reached
  have still : (locked.hubs .peer).feeds (0, 0) = some feed := by rwa [hubLocked]
  obtain ⟨sent, reached, hubSent⟩ :=
    reaches_hub reached (.deliver .peer (by rw [hubLocked]; rfl) still opened room)
  obtain ⟨unlocked, reached, hubUnlocked⟩ :=
    reaches_hub reached (.unlock .peer (by rw [hubSent]; rfl))
  refine ⟨unlocked, reached, ?_, ?_, { feed with queued := feed.queued + 1 }, ?_, opened, rfl⟩
  · rw [hubUnlocked]
    rfl
  · rw [hubUnlocked, hubSent, hubLocked]
    exact filled.subscribed
  · rw [hubUnlocked, hubSent, Hub.unlock, Hub.deliver, Hub.feeds_setFeed, if_pos rfl]

private theorem filled_of_le (peerID : Bytes) (fits : count ≤ capacity) :
    ∃ s, machine.Reachable s ∧ Filled (encodeToString peerID) count s := by
  induction count with
  | zero =>
    have idle : machine.Reachable initial := .start rfl
    refine ⟨_, idle.step (.waitOnline 0 peerID rfl nofun), rfl, ?_, _, rfl, rfl, rfl⟩
    exact Function.update_self ..
  | succ count more =>
    obtain ⟨s, reached, filled⟩ := more (Nat.le_of_succ_le fits)
    exact filled.next reached fits

/-- The peer comes online eleven times before a call looks whether it is connected. -/
theorem waitOnline_deadlocks : ∃ s, machine.Reachable s ∧ s.Deadlocked := by
  obtain ⟨s, reached, filled⟩ := filled_of_le [2] (Nat.le_refl capacity)
  obtain ⟨feed, found, _, full⟩ := filled.queued
  obtain ⟨locked, reached, hubLocked⟩ := filled.lock reached
  obtain ⟨u, run, deadlocked⟩ := deadlocks_of_full reached (by rw [hubLocked]; rfl)
    (List.mem_cons_self ..) (by rwa [hubLocked]) (Nat.not_lt.mpr full.ge)
  exact ⟨u, reached.trans run, deadlocked⟩

end Filling

/-- One event comes before the call looks whether the peer is connected. -/
theorem unhurried_sample : ∃ s, machine.ReachableWhen Unhurried s ∧
    (∃ topics rest, s.calls (.peer, 0) = .returning topics rest) ∧ ¬ s.Deadlocked := by
  have idle : machine.ReachableWhen Unhurried initial := .start rfl
  have subscribed := idle.step (by exact trivial) (.waitOnline 0 [2] rfl nofun)
  have heard := subscribed.step (by exact trivial)
    (.hear .peer (.peerOnline (encodeToString [2])) rfl rfl)
  have locked := heard.step (by
    intro ref member feed found
    obtain rfl := List.mem_singleton.mp member
    obtain rfl := Option.some.inj found
    exact Nat.zero_lt_succ 9) (.lock .peer rfl (.refl _))
  have settled := locked.step (by exact trivial) (.settle .peer 0 rfl)
  exact ⟨_, settled, ⟨_, _, rfl⟩, (deadlocks_unless_unhurried _).1 settled⟩

end LndClient

end Lspd.Lnd
