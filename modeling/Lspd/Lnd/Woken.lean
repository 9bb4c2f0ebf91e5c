import Lspd.Lnd.Subscribed

/-! The maps of subscribers have an entry for each subscription of a call until the
call takes it back, and no event between is lost. -/

namespace Lspd.Lnd

open Lspd.Lightning Lspd.Process Lspd.Store

/-- The call has not begun to return. -/
def CallPhase.Waits : CallPhase → Prop
  | .checking _ | .selecting _ => True
  | _ => False

namespace LndClient

section Kept

/-- A message that was taken from a channel is still on its way to the call. -/
def Forwards (s : LndClient) : Kind → Nat → Nat → Prop
  | .peer, _, _ => False
  | .chan, n, k => s.forwarders (n, k) = .holding ∨ 0 < (s.signals n).queued

/-- No call that waits has lost a message. -/
def Kept (s : LndClient) : Prop :=
  ∀ kind n k feed, (s.hubs kind).feeds (n, k) = some feed → (s.calls (kind, n)).Waits →
    0 < feed.taken → s.Forwards kind n k

variable {s t : LndClient} {kind : Kind} {n : Nat} {hub : Hub String (Nat × Nat)} {phase : CallPhase}
  {ref : Nat × Nat} {feed after : Feed String} {topics : List String}

theorem Forwards.congr (forwarders : t.forwarders = s.forwarders) (signals : t.signals = s.signals)
    {k : Nat} (forwards : s.Forwards kind n k) : t.Forwards kind n k := by
  cases kind with
  | peer => exact forwards
  | chan =>
    rw [Forwards, forwarders, signals]
    exact forwards

theorem Kept.setHub (kept : s.Kept)
    (taken : ∀ ref after, hub.feeds ref = some after →
      ∃ feed, (s.hubs kind).feeds ref = some feed ∧ feed.taken = after.taken) :
    (s.setHub kind hub).Kept := by
  intro other m k after found waits positive
  refine Forwards.congr rfl rfl ?_
  rw [hubs_setHub] at found
  split_ifs at found with here
  · subst here
    obtain ⟨feed, before, same⟩ := taken (m, k) after found
    exact kept other m k feed before waits (same ▸ positive)
  · exact kept other m k after found waits positive

theorem Kept.setCall (kept : s.Kept) (still : phase.Waits → (s.calls (kind, n)).Waits) :
    (s.setCall kind n phase).Kept := by
  intro other m k after found waits positive
  refine Forwards.congr rfl rfl (kept other m k after found ?_ positive)
  rw [calls_setCall] at waits
  split_ifs at waits with here
  · rw [here]
    exact still waits
  · exact waits

/-- A call that returns may do anything to its own channels. -/
theorem Kept.returning (kept : s.Kept) (gone : ¬ phase.Waits)
    (others : ∀ m k, m ≠ n → hub.feeds (m, k) = (s.hubs kind).feeds (m, k)) :
    ((s.setHub kind hub).setCall kind n phase).Kept := by
  intro other m k after found waits positive
  rw [calls_setCall] at waits
  split_ifs at waits with own
  · exact absurd waits gone
  · refine Forwards.congr rfl rfl (kept other m k after ?_ waits positive)
    rw [hubs_setCall, hubs_setHub] at found
    split_ifs at found with here
    · subst here
      rwa [others m k (by rintro rfl; exact own rfl)] at found
    · exact found

theorem Kept.subscribe (kept : s.Kept) (unused : ∀ k, (s.hubs kind).feeds (n, k) = none) :
    (s.subscribe kind n topics).Kept := by
  intro other m k after found waits positive
  rw [LndClient.subscribe, hubs_setCall, hubs_setHub] at found
  rw [LndClient.subscribe, calls_setCall] at waits
  by_cases own : (other, m) = (kind, n)
  · obtain ⟨rfl, rfl⟩ := Prod.mk.inj own
    rw [if_pos rfl, feeds_subscribeAll_zero unused, Option.map_eq_some_iff] at found
    obtain ⟨topic, _, rfl⟩ := found
    exact absurd positive (Nat.lt_irrefl 0)
  · rw [if_neg own] at waits
    refine Forwards.congr rfl rfl (kept other m k after ?_ waits positive)
    split_ifs at found with here
    · subst here
      rwa [feeds_subscribeAll_of_ne (.inl (by rintro rfl; exact own rfl))] at found
    · exact found

theorem feeds_setFeed_of_ne {k m j : Nat} (other : m ≠ n) :
    (((s.hubs kind).setFeed (n, k) after).feeds (m, j)) = (s.hubs kind).feeds (m, j) := by
  rw [Hub.feeds_setFeed, if_neg (by simp [other])]

/-- The forwarder holds what it has received. -/
theorem Kept.receive {k : Nat} (kept : s.Kept) :
    LndClient.Kept { s.setHub .chan ((s.hubs .chan).take (n, k) feed) with
      forwarders := Function.update s.forwarders (n, k) .holding } := by
  intro other m j after found waits positive
  change ((s.setHub .chan ((s.hubs .chan).take (n, k) feed)).hubs other).feeds (m, j) =
    some after at found
  rw [hubs_setHub] at found
  split_ifs at found with here
  · subst here
    by_cases own : (m, j) = (n, k)
    · refine .inl ?_
      simp [own]
    · rw [Hub.take, Hub.feeds_setFeed, if_neg own] at found
      refine (kept .chan m j after found waits positive).imp_left fun holding => ?_
      simpa [Function.update_of_ne own] using holding
  · cases other with
    | peer => exact kept .peer m j after found waits positive
    | chan => exact absurd rfl here

theorem Kept.forward {k : Nat} (kept : s.Kept) :
    LndClient.Kept { s with
      forwarders := Function.update s.forwarders (n, k) .waiting
      signals := Function.update s.signals n
        { s.signals n with queued := (s.signals n).queued + 1 } } := by
  intro other m j after found waits positive
  have forwards := kept other m j after found waits positive
  cases other with
  | peer => exact forwards
  | chan =>
    by_cases own : m = n
    · refine .inr ?_
      simp [own]
    · refine forwards.imp (fun holding => ?_) fun queued => ?_
      · simpa [Function.update_apply, own] using holding
      · simpa [Function.update_of_ne own] using queued

theorem Kept.finish {k : Nat} (kept : s.Kept) (here : s.forwarders (n, k) = .waiting) :
    LndClient.Kept { s with forwarders := Function.update s.forwarders (n, k) .ended } := by
  intro other m j after found waits positive
  have forwards := kept other m j after found waits positive
  cases other with
  | peer => exact forwards
  | chan =>
    refine forwards.imp_left fun holding => ?_
    have other : (m, j) ≠ (n, k) := by
      intro own
      rw [own, here] at holding
      cases holding
    simpa [Function.update_of_ne other] using holding

/-- A call that returns may do anything to its signal. -/
theorem Kept.signalled (kept : s.Kept) (gone : ¬ phase.Waits) (signal : Signal) :
    LndClient.Kept { s.setCall .chan n phase with
      signals := Function.update s.signals n signal } := by
  intro other m j after found waits positive
  change ((s.setCall .chan n phase).calls (other, m)).Waits at waits
  rw [calls_setCall] at waits
  split_ifs at waits with own
  · exact absurd waits gone
  · have forwards := kept other m j after found waits positive
    cases other with
    | peer => exact forwards
    | chan =>
      have different : m ≠ n := by
        rintro rfl
        exact own rfl
      refine forwards.imp_right fun queued => ?_
      simpa [Function.update_of_ne different] using queued

theorem Kept.step {action : Action} (inv : s.Inv) (kept : s.Kept) (step : Step s action t) :
    t.Kept := by
  cases step with
  | waitOnline n peerID here free => exact kept.subscribe (unused_of_idle inv.linked here)
  | returnEarly n here => exact kept.setCall False.elim
  | waitChannelActive n points here _ free => exact kept.subscribe (unused_of_idle inv.linked here)
  | settle kind n here => exact kept.setCall False.elim
  | wait kind n here =>
    refine kept.setCall fun _ => ?_
    rw [here]
    trivial
  | deadline kind n here => exact kept.setCall False.elim
  | online n here found queued =>
    exact kept.returning id fun _ _ other => feeds_setFeed_of_ne other
  | active n here queued => exact kept.signalled id _
  | unsubscribe kind n k here found free =>
    exact kept.returning id fun _ _ other => feeds_setFeed_of_ne other
  | closeFeed kind n k here found =>
    exact kept.returning id fun _ _ other => feeds_setFeed_of_ne other
  | closeSignal n here => exact kept.signalled id _
  | receive n k here found queued => exact kept.receive
  | forward n k here opened room => exact kept.forward
  | finish n k here found closed drained => exact kept.finish here
  | hear kind event here known => exact kept.setHub fun _ after found => ⟨after, found, rfl⟩
  | lock kind here order => exact kept.setHub fun _ after found => ⟨after, found, rfl⟩
  | deliver kind here found opened room =>
    refine kept.setHub fun _ _ at_ => ?_
    exact Hub.exists_of_setFeed (fun one two => one.taken = two.taken) (fun _ => rfl) found at_ rfl
  | unlock kind here => exact kept.setHub fun _ after found => ⟨after, found, rfl⟩

theorem Kept.reachable (reached : machine.Reachable s) : s.Kept := by
  refine reached.induct Kept ?_ fun _ _ _ before kept taken => kept.step (Inv.reachable before) taken
  rintro _ rfl _ _ _ _ found
  cases found

end Kept

section Results

variable {s t : LndClient} {kind : Kind} {n k : Nat} {topic : String} {topics : List String}

theorem Inv.has_iff_subscribed (inv : s.Inv) :
    (∃ id, (s.hubs kind).subs.Has topic id (n, k)) ↔ (s.calls (kind, n)).Subscribed k topic := by
  rw [← inv.subscribed_iff]
  simp only [(inv.sound kind).listed]
  constructor
  · rintro ⟨id, feed, found, here, _, subscribed⟩
    exact ⟨feed, found, here, subscribed⟩
  · rintro ⟨feed, found, here, subscribed⟩
    exact ⟨feed.id, feed, found, here, rfl, subscribed⟩

/-- One id is in one place of one map only. -/
theorem Inv.place_of_id (inv : s.Inv) {other : Kind} {later : String} {id : Nat}
    {one two : Nat × Nat} (first : (s.hubs kind).subs.Has topic id one)
    (second : (s.hubs other).subs.Has later id two) : kind = other ∧ topic = later ∧ one = two := by
  obtain ⟨feed, found, rfl, rfl, _⟩ := ((inv.sound kind).listed topic id one).mp first
  obtain ⟨twin, twice, rfl, same, _⟩ := ((inv.sound other).listed later feed.id two).mp second
  have equal : kind = other := by
    cases kind <;> cases other
    · rfl
    · exact absurd same.symm (inv.numbered.across one two feed twin found twice)
    · exact absurd same (inv.numbered.across two one twin feed twice found)
    · rfl
  subst equal
  obtain rfl := (inv.sound kind).distinct one two feed twin found twice same.symm
  obtain rfl := Option.some.inj (found.symm.trans twice)
  exact ⟨rfl, rfl, rfl⟩

/-- A subscription has one place in its map only. -/
theorem Inv.id_of_place (inv : s.Inv) {later : String} {id key : Nat} {ref : Nat × Nat}
    (first : (s.hubs kind).subs.Has topic id ref) (second : (s.hubs kind).subs.Has later key ref) :
    id = key ∧ topic = later := by
  obtain ⟨feed, found, rfl, rfl, _⟩ := ((inv.sound kind).listed topic id ref).mp first
  obtain ⟨twin, twice, rfl, rfl, _⟩ := ((inv.sound kind).listed later key ref).mp second
  obtain rfl := Option.some.inj (found.symm.trans twice)
  exact ⟨rfl, rfl⟩

theorem Inv.has_of_unsubscribe (inv : s.Inv) (step : Step s (.unsubscribe kind n k) t)
    {other : Kind} {id : Nat} {ref : Nat × Nat} :
    (t.hubs other).subs.Has topic id ref ↔
      (s.hubs other).subs.Has topic id ref ∧ ¬ (other = kind ∧ ref = (n, k)) := by
  have later := inv.step step
  cases step with
  | unsubscribe _ _ _ here found free =>
    rename_i topics rest feed
    rw [hubs_setCall, hubs_setHub]
    split_ifs with own
    · subst own
      rw [Hub.unsubscribe, Nested.has_remove, and_congr_right_iff]
      intro has
      obtain ⟨twin, twice, rfl, rfl, _⟩ := ((inv.sound other).listed topic id ref).mp has
      simp only [true_and, not_iff_not]
      constructor
      · rintro ⟨_, same⟩
        exact (inv.sound other).distinct ref (n, k) twin feed twice found same
      · rintro rfl
        obtain rfl := Option.some.inj (found.symm.trans twice)
        exact ⟨rfl, rfl⟩
    · simp [own]

/-- A call in its `select` has a message, or one is on its way, if there was an event. -/
theorem Inv.woken (inv : s.Inv) (kept : s.Kept) (here : s.calls (kind, n) = .selecting topics)
    (listed : topics[k]? = some topic) :
    ∃ feed, (s.hubs kind).feeds (n, k) = some feed ∧ feed.topic = topic ∧
      (feed.since < (s.hubs kind).processed topic → 0 < feed.queued ∨ s.Forwards kind n k) := by
  have still : (s.calls (kind, n)).Subscribed k topic := by rwa [here]
  obtain ⟨feed, found, rfl, subscribed⟩ := inv.subscribed_iff.mpr still
  refine ⟨feed, found, rfl, fun later => ?_⟩
  have positive := ((inv.sound kind).served (n, k) feed found subscribed).woken later
  by_cases empty : 0 < feed.queued
  · exact .inl empty
  · refine .inr (kept kind n k feed found ?_ (by omega))
    rw [here]
    trivial

/-- The maps have one entry for each subscription that is not taken back and no other,
every entry has an id of its own, and no inner map is empty. -/
structure Listed (s : LndClient) : Prop where
  tidy : ∀ kind, (s.hubs kind).subs.Tidy
  has_iff : ∀ kind n k topic, (∃ id, (s.hubs kind).subs.Has topic id (n, k)) ↔
    (s.calls (kind, n)).Subscribed k topic
  id_eq_iff : ∀ kind other topic later id key one two, (s.hubs kind).subs.Has topic id one →
    (s.hubs other).subs.Has later key two →
    (id = key ↔ kind = other ∧ topic = later ∧ one = two)

theorem Inv.listed (inv : s.Inv) : s.Listed := by
  refine ⟨fun kind => (inv.sound kind).tidy, fun _ _ _ _ => inv.has_iff_subscribed, ?_⟩
  intro kind other topic later id key one two first second
  constructor
  · rintro rfl
    exact inv.place_of_id first second
  · rintro ⟨rfl, rfl, rfl⟩
    exact (inv.id_of_place first second).1

/-- In every run the maps of subscribers are exact. The deferred function of a call takes
out its own entry, a call that has returned has none left, and a call in its `select` has
a message waiting, or on its way, once one of its events was processed. -/
theorem listed_and_woken (reached : machine.Reachable s) :
    s.Listed ∧
      (∀ kind n k t, Step s (.unsubscribe kind n k) t → ∀ other topic id ref,
        (t.hubs other).subs.Has topic id ref ↔
          (s.hubs other).subs.Has topic id ref ∧ ¬ (other = kind ∧ ref = (n, k))) ∧
      (∀ kind n topics, s.calls (kind, n) = .returning topics [] → ∀ topic id k,
        ¬ (s.hubs kind).subs.Has topic id (n, k)) ∧
      ∀ kind n topics k topic, s.calls (kind, n) = .selecting topics → topics[k]? = some topic →
        ∃ feed, (s.hubs kind).feeds (n, k) = some feed ∧ feed.topic = topic ∧
          (feed.since < (s.hubs kind).processed topic → 0 < feed.queued ∨ s.Forwards kind n k) := by
  have inv := Inv.reachable reached
  refine ⟨inv.listed, ?_, ?_, ?_⟩
  · intro kind n k t step other topic id ref
    exact inv.has_of_unsubscribe step
  · intro kind n topics here topic id k has
    have subscribed := inv.has_iff_subscribed.mp ⟨id, has⟩
    rw [here] at subscribed
    exact List.not_mem_nil subscribed.2
  · intro kind n topics k topic here listed
    exact inv.woken (Kept.reachable reached) here listed

/-- The peer comes online before the call is in its `select`. -/
theorem listed_and_woken_sample :
    ∃ s, machine.Reachable s ∧ s.calls (.peer, 0) = .selecting [encodeToString [2]] ∧
      ∃ feed, (s.hubs .peer).feeds (0, 0) = some feed ∧
        feed.since < (s.hubs .peer).processed (encodeToString [2]) ∧ 0 < feed.queued := by
  have idle : machine.Reachable initial := .start rfl
  have subscribed := idle.step (.waitOnline 0 [2] rfl fun _ _ _ held => nomatch held)
  have heard := subscribed.step (.hear .peer (.peerOnline (encodeToString [2])) rfl rfl)
  have locked := heard.step (.lock .peer rfl (.refl _))
  have sent := locked.step (.deliver .peer rfl rfl rfl (Nat.zero_lt_succ 9))
  have processed := sent.step (.unlock .peer rfl)
  have selecting := processed.step (.wait .peer 0 rfl)
  obtain ⟨feed, found, _, woken⟩ := (listed_and_woken selecting).2.2.2 .peer 0 _ 0 _ rfl rfl
  obtain rfl := Option.some.inj found
  exact ⟨_, selecting, rfl, _, rfl, by decide, (woken (by decide)).resolve_right id⟩

end Results

end LndClient

end Lspd.Lnd
