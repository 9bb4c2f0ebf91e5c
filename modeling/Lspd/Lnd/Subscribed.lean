import Lspd.Lnd.Subscriptions

/-! What holds between the phases of the calls, their channels and the maps of
subscribers, from step to step. -/

namespace Lspd.Lnd

open Lspd.Process Lspd.Store

/-- What the phase of a call says about one of its channels. -/
def shape (feed : Feed String) : String × Bool × Bool := (feed.topic, feed.subscribed, feed.closed)

def CallPhase.shape : CallPhase → Nat → Option (String × Bool × Bool)
  | .idle, _ => none
  | .checking topics, k | .selecting topics, k => topics[k]?.map fun topic => (topic, true, false)
  | .returning topics deferred, k => topics[k]?.map fun topic =>
      (topic, decide (.unsubscribe k ∈ deferred), decide (.closeFeed k ∉ deferred))

/-- The order of deferred functions: a channel is closed after its subscription is gone,
the signal at last, and nothing is done twice. -/
def Deferred.Before : Deferred → Deferred → Prop
  | .unsubscribe k, .unsubscribe j | .closeFeed k, .closeFeed j | .closeFeed k, .unsubscribe j => k ≠ j
  | .closeSignal, _ => False
  | _, _ => True

/-- The topics of the subscriptions that the call has not taken back. -/
def CallPhase.Subscribed : CallPhase → Nat → String → Prop
  | .idle, _, _ => False
  | .checking topics, k, topic | .selecting topics, k, topic => topics[k]? = some topic
  | .returning topics deferred, k, topic => topics[k]? = some topic ∧ .unsubscribe k ∈ deferred

theorem CallPhase.subscribed_iff_shape {phase : CallPhase} {k : Nat} {topic : String} :
    phase.Subscribed k topic ↔ ∃ closed, phase.shape k = some (topic, true, closed) := by
  cases phase <;> simp [Subscribed, shape, Decidable.em]

def CallPhase.Ordered : CallPhase → Prop
  | .returning _ deferred => deferred.Pairwise Deferred.Before
  | _ => True

theorem mem_feedStack {count k : Nat} :
    (.unsubscribe k ∈ feedStack count ↔ k < count) ∧ (.closeFeed k ∈ feedStack count ↔ k < count) := by
  induction count with
  | zero => simp [feedStack]
  | succ count more =>
    simp only [feedStack, List.mem_cons, more, Deferred.unsubscribe.injEq,
      Deferred.closeFeed.injEq, reduceCtorEq, false_or]
    omega

theorem closeSignal_notMem_feedStack (count : Nat) : .closeSignal ∉ feedStack count := by
  induction count with
  | zero => exact List.not_mem_nil
  | succ count more => simpa [feedStack] using more

theorem pairwise_feedStack (count : Nat) : (feedStack count).Pairwise Deferred.Before := by
  induction count with
  | zero => exact .nil
  | succ count more =>
    refine .cons ?_ (.cons ?_ more)
    all_goals
      intro later member
      cases later with
      | unsubscribe k =>
        have below : k < count := by simpa [mem_feedStack] using member
        exact Nat.ne_of_gt below
      | closeFeed k =>
        first
        | trivial
        | have below : k < count := by simpa [mem_feedStack] using member
          exact Nat.ne_of_gt below
      | closeSignal => trivial

theorem ordered_deferred (kind : Kind) (count : Nat) :
    (deferred kind count).Pairwise Deferred.Before := by
  cases kind with
  | peer =>
    rw [deferred, List.append_nil]
    exact pairwise_feedStack count
  | chan =>
    refine List.pairwise_append.mpr ⟨pairwise_feedStack count, List.pairwise_singleton .., ?_⟩
    intro one member two last
    obtain rfl := List.mem_singleton.mp last
    cases one with
    | closeSignal => exact absurd member (closeSignal_notMem_feedStack count)
    | _ => trivial

/-- A call that leaves still has all its channels. -/
theorem shape_deferred (kind : Kind) (topics : List String) (k : Nat) :
    (CallPhase.returning topics (deferred kind topics.length)).shape k =
      (CallPhase.checking topics).shape k := by
  simp only [CallPhase.shape]
  cases found : topics[k]? with
  | none => rfl
  | some topic =>
    have below : k < topics.length := (List.getElem?_eq_some_iff.mp found).1
    have unsubscribes : .unsubscribe k ∈ deferred kind topics.length :=
      List.mem_append_left _ (mem_feedStack.1.mpr below)
    have closes : .closeFeed k ∈ deferred kind topics.length :=
      List.mem_append_left _ (mem_feedStack.2.mpr below)
    simp [unsubscribes, closes]

theorem shape_setFeed {hub : Hub String (Nat × Nat)} {ref wanted : Nat × Nat}
    {feed after : Feed String} (here : hub.feeds ref = some feed) (same : shape after = shape feed) :
    ((hub.setFeed ref after).feeds wanted).map shape = (hub.feeds wanted).map shape := by
  rw [Hub.feeds_setFeed]
  split_ifs with own
  · rw [own, here, Option.map_some, Option.map_some, same]
  · rfl

namespace LndClient

section SubscribeAll

variable {hub : Hub String (Nat × Nat)} {n index k : Nat} {topics : List String}

theorem listener_subscribeAll :
    (subscribeAll hub n index k topics).listener = hub.listener := by
  induction topics generalizing hub k with
  | nil => rfl
  | cons topic topics more =>
    rw [subscribeAll, more]
    rfl

theorem feeds_subscribeAll_of_ne {ref : Nat × Nat} (other : ref.1 ≠ n ∨ ref.2 < k) :
    (subscribeAll hub n index k topics).feeds ref = hub.feeds ref := by
  induction topics generalizing hub k with
  | nil => rfl
  | cons topic topics more =>
    have different : ref ≠ (n, k) := by
      rintro rfl
      simp at other
    rw [subscribeAll, more (by omega)]
    exact Hub.feeds_setFeed.trans (if_neg different)

theorem feeds_subscribeAll (unused : ∀ j, k ≤ j → hub.feeds (n, j) = none) (j : Nat) :
    (subscribeAll hub n index k topics).feeds (n, k + j) = topics[j]?.map fun topic =>
      ⟨topic, index + (k + j), true, 0, false, 0, hub.processed topic⟩ := by
  induction topics generalizing hub k j with
  | nil => exact unused (k + j) (Nat.le_add_right k j)
  | cons topic topics more =>
    have own (wanted : Nat × Nat) : (hub.subscribe topic (index + k) (n, k)).feeds wanted =
        if wanted = (n, k) then some ⟨topic, index + k, true, 0, false, 0, hub.processed topic⟩
        else hub.feeds wanted := Hub.feeds_setFeed
    rw [subscribeAll]
    cases j with
    | zero =>
      rw [feeds_subscribeAll_of_ne (.inr (Nat.lt_succ_self k)), Nat.add_zero, own, if_pos rfl]
      rfl
    | succ j =>
      have later : ∀ i, k + 1 ≤ i → (hub.subscribe topic (index + k) (n, k)).feeds (n, i) = none := by
        intro i beyond
        rw [own, if_neg (by simp; omega), unused i (by omega)]
      have shifted : k + (j + 1) = k + 1 + j := by omega
      rw [shifted, more later, List.getElem?_cons_succ]
      rfl

/-- The channels of a call that subscribes from its first topic on. -/
theorem feeds_subscribeAll_zero (unused : ∀ j, hub.feeds (n, j) = none) (j : Nat) :
    (subscribeAll hub n index 0 topics).feeds (n, j) = topics[j]?.map fun topic =>
      ⟨topic, index + j, true, 0, false, 0, hub.processed topic⟩ := by
  have fed := @feeds_subscribeAll hub n index 0 topics (fun i _ => unused i) j
  rwa [Nat.zero_add] at fed

theorem sound_subscribeAll (sound : hub.Sound) (free : hub.Free)
    (unused : ∀ j, k ≤ j → hub.feeds (n, j) = none)
    (below : ∀ ref feed, hub.feeds ref = some feed → feed.id < index + k) :
    (subscribeAll hub n index k topics).Sound := by
  induction topics generalizing hub k with
  | nil => exact sound
  | cons topic topics more =>
    have own (wanted : Nat × Nat) : (hub.subscribe topic (index + k) (n, k)).feeds wanted =
        if wanted = (n, k) then some ⟨topic, index + k, true, 0, false, 0, hub.processed topic⟩
        else hub.feeds wanted := Hub.feeds_setFeed
    refine more (sound.subscribe free (unused k (Nat.le_refl k)) fun ref feed found =>
      Nat.ne_of_lt (below ref feed found)) free ?_ ?_
    · intro j beyond
      rw [own, if_neg (by simp; omega), unused j (by omega)]
    · intro ref feed found
      rw [own] at found
      split_ifs at found with here
      · obtain rfl := Option.some.inj found
        exact Nat.lt_succ_self _
      · exact Nat.lt_succ_of_lt (below ref feed found)

end SubscribeAll

section Linked

/-- The channels of every call are as its phase says. -/
def Linked (s : LndClient) : Prop :=
  ∀ kind n k, ((s.hubs kind).feeds (n, k)).map shape = (s.calls (kind, n)).shape k

variable {s : LndClient} {kind : Kind} {n : Nat} {hub : Hub String (Nat × Nat)} {phase : CallPhase}

@[simp]
theorem hubs_setHub (other : Kind) :
    (s.setHub kind hub).hubs other = if other = kind then hub else s.hubs other :=
  Function.update_apply ..

@[simp]
theorem calls_setHub : (s.setHub kind hub).calls = s.calls := rfl

@[simp]
theorem hubs_setCall : (s.setCall kind n phase).hubs = s.hubs := rfl

@[simp]
theorem calls_setCall (call : Kind × Nat) :
    (s.setCall kind n phase).calls call = if call = (kind, n) then phase else s.calls call :=
  Function.update_apply ..

theorem linked_setHub (linked : s.Linked)
    (same : ∀ ref, (hub.feeds ref).map shape = ((s.hubs kind).feeds ref).map shape) :
    (s.setHub kind hub).Linked := by
  intro other m k
  rw [hubs_setHub, calls_setHub]
  split_ifs with here
  · rw [same, here]
    exact linked kind m k
  · exact linked other m k

theorem linked_setCall (linked : s.Linked)
    (same : ∀ k, phase.shape k = (s.calls (kind, n)).shape k) : (s.setCall kind n phase).Linked := by
  intro other m k
  rw [hubs_setCall, calls_setCall]
  split_ifs with here
  · obtain ⟨rfl, rfl⟩ := Prod.mk.inj here
    rw [same]
    exact linked other m k
  · exact linked other m k

theorem linked_update (linked : s.Linked)
    (others : ∀ m k, m ≠ n → (hub.feeds (m, k)).map shape = ((s.hubs kind).feeds (m, k)).map shape)
    (own : ∀ k, (hub.feeds (n, k)).map shape = phase.shape k) :
    ((s.setHub kind hub).setCall kind n phase).Linked := by
  intro other m k
  rw [hubs_setCall, calls_setCall, hubs_setHub, calls_setHub]
  by_cases here : other = kind
  · subst here
    by_cases same : m = n
    · subst same
      rw [if_pos rfl, if_pos rfl]
      exact own k
    · rw [if_pos rfl, if_neg (by simp [same]), others m k same]
      exact linked other m k
  · rw [if_neg here, if_neg (by simp [here])]
    exact linked other m k

/-- One deferred function of a call changes one of its channels. -/
theorem linked_setFeed {k : Nat} {after : Feed String} (linked : s.Linked)
    (feeds : hub.feeds = ((s.hubs kind).setFeed (n, k) after).feeds)
    (kept : ∀ j, j ≠ k → phase.shape j = (s.calls (kind, n)).shape j)
    (own : phase.shape k = some (shape after)) :
    ((s.setHub kind hub).setCall kind n phase).Linked := by
  refine linked_update linked (fun m j other => ?_) fun j => ?_
  · rw [feeds, Hub.feeds_setFeed, if_neg (by simp [other])]
  · rw [feeds, Hub.feeds_setFeed]
    split_ifs with here
    · rw [(Prod.mk.inj here).2, own]
      rfl
    · rw [kept j (by rintro rfl; exact here rfl)]
      exact linked kind n j

theorem linked_subscribe {topics : List String} (linked : s.Linked)
    (unused : ∀ k, (s.hubs kind).feeds (n, k) = none) : (s.subscribe kind n topics).Linked := by
  refine linked_update linked (fun m k other => ?_) fun k => ?_
  · rw [feeds_subscribeAll_of_ne (.inl other)]
  · rw [feeds_subscribeAll_zero unused, Option.map_map]
    rfl

/-- An idle call has no channel. -/
theorem unused_of_idle (linked : s.Linked) (here : s.calls (kind, n) = .idle) (k : Nat) :
    (s.hubs kind).feeds (n, k) = none := by
  have none := linked kind n k
  rw [here] at none
  exact Option.map_eq_none_iff.mp none

theorem shape_of_returning {topics : List String} {rest : List Deferred} {k : Nat}
    {feed : Feed String} (linked : s.Linked) (here : s.calls (kind, n) = .returning topics rest)
    (found : (s.hubs kind).feeds (n, k) = some feed) :
    topics[k]? = some feed.topic ∧ feed.subscribed = decide (.unsubscribe k ∈ rest) ∧
      feed.closed = decide (.closeFeed k ∉ rest) := by
  have shaped := linked kind n k
  rw [here, found, Option.map_some, CallPhase.shape, eq_comm, Option.map_eq_some_iff] at shaped
  obtain ⟨topic, at_, equal⟩ := shaped
  simp only [shape, Prod.mk.injEq] at equal
  obtain ⟨rfl, subscribed, closed⟩ := equal
  exact ⟨at_, subscribed.symm, closed.symm⟩

end Linked

section Numbered

/-- Ids are below the next one, and the two maps share none. -/
structure Numbered (s : LndClient) : Prop where
  below : ∀ kind ref feed, (s.hubs kind).feeds ref = some feed → feed.id < s.index
  across : ∀ one two first second, (s.hubs .peer).feeds one = some first →
    (s.hubs .chan).feeds two = some second → first.id ≠ second.id

variable {s : LndClient} {kind : Kind} {n : Nat} {hub : Hub String (Nat × Nat)}

theorem numbered_setHub (numbered : s.Numbered)
    (kept : ∀ ref after, hub.feeds ref = some after →
      ∃ feed, (s.hubs kind).feeds ref = some feed ∧ feed.id = after.id) :
    (s.setHub kind hub).Numbered := by
  have earlier (other : Kind) (ref : Nat × Nat) (after : Feed String)
      (found : ((s.setHub kind hub).hubs other).feeds ref = some after) :
      ∃ feed, (s.hubs other).feeds ref = some feed ∧ feed.id = after.id := by
    rw [hubs_setHub] at found
    split_ifs at found with here
    · rw [here]
      exact kept ref after found
    · exact ⟨after, found, rfl⟩
  constructor
  · intro other ref after found
    obtain ⟨feed, before, same⟩ := earlier other ref after found
    exact same ▸ numbered.below other ref feed before
  · intro one two first second atFirst atSecond
    obtain ⟨feedFirst, beforeFirst, sameFirst⟩ := earlier .peer one first atFirst
    obtain ⟨feedSecond, beforeSecond, sameSecond⟩ := earlier .chan two second atSecond
    rw [← sameFirst, ← sameSecond]
    exact numbered.across one two feedFirst feedSecond beforeFirst beforeSecond

theorem numbered_setFeed {ref : Nat × Nat} {feed after : Feed String} (numbered : s.Numbered)
    (here : (s.hubs kind).feeds ref = some feed)
    (feeds : hub.feeds = ((s.hubs kind).setFeed ref after).feeds) (same : feed.id = after.id) :
    (s.setHub kind hub).Numbered := by
  refine numbered_setHub numbered fun wanted found at_ => ?_
  rw [feeds] at at_
  exact Hub.exists_of_setFeed (fun one two => one.id = two.id) (fun _ => rfl) here at_ same

/-- The ids of new subscriptions have not been used before. -/
theorem numbered_subscribe {topics : List String} (numbered : s.Numbered)
    (unused : ∀ k, (s.hubs kind).feeds (n, k) = none) : (s.subscribe kind n topics).Numbered := by
  have origin (other : Kind) (ref : Nat × Nat) (after : Feed String)
      (found : ((s.subscribe kind n topics).hubs other).feeds ref = some after) :
      (s.hubs other).feeds ref = some after ∨
        other = kind ∧ s.index ≤ after.id ∧ after.id < s.index + topics.length := by
    rw [subscribe, hubs_setCall, hubs_setHub] at found
    split_ifs at found with here
    · obtain ⟨m, k⟩ := ref
      by_cases own : m = n
      · subst own
        rw [feeds_subscribeAll_zero unused, Option.map_eq_some_iff] at found
        obtain ⟨topic, at_, rfl⟩ := found
        have bound := (List.getElem?_eq_some_iff.mp at_).1
        exact .inr ⟨here, Nat.le_add_right .., Nat.add_lt_add_left bound _⟩
      · rw [feeds_subscribeAll_of_ne (.inl own), ← here] at found
        exact .inl found
    · exact .inl found
  -- two ids are both old, or both of the same map, or on different sides of the old index
  constructor
  · intro other ref after found
    rcases origin other ref after found with old | ⟨_, _, bound⟩
    · exact Nat.lt_add_right _ (numbered.below other ref after old)
    · exact bound
  · intro one two first second atFirst atSecond
    rcases origin .peer one first atFirst with old | ⟨here, low, _⟩
    · rcases origin .chan two second atSecond with older | ⟨_, low, _⟩
      · exact numbered.across one two first second old older
      · exact Nat.ne_of_lt (Nat.lt_of_lt_of_le (numbered.below .peer one first old) low)
    · rcases origin .chan two second atSecond with old | ⟨other, _, _⟩
      · exact Nat.ne_of_gt (Nat.lt_of_lt_of_le (numbered.below .chan two second old) low)
      · exact nomatch here.trans other.symm

end Numbered

/-- What every step keeps. -/
structure Inv (s : LndClient) : Prop where
  linked : s.Linked
  ordered : ∀ call, (s.calls call).Ordered
  sound : ∀ kind, (s.hubs kind).Sound
  numbered : s.Numbered

namespace Inv

variable {s t : LndClient} {kind : Kind} {n : Nat} {hub : Hub String (Nat × Nat)} {phase : CallPhase}
  {ref : Nat × Nat} {feed after : Feed String} {topics : List String} {rest : List Deferred}

theorem congr (inv : s.Inv) (index : t.index = s.index) (hubs : t.hubs = s.hubs)
    (calls : t.calls = s.calls) : t.Inv := by
  cases t
  cases index
  cases hubs
  cases calls
  exact ⟨inv.linked, inv.ordered, inv.sound, inv.numbered.below, inv.numbered.across⟩

theorem sound_setHub (inv : s.Inv) (sound : hub.Sound) (other : Kind) :
    ((s.setHub kind hub).hubs other).Sound := by
  rw [hubs_setHub]
  split_ifs
  · exact sound
  · exact inv.sound other

theorem ordered_of_returning (inv : s.Inv) (here : s.calls (kind, n) = .returning topics rest) :
    rest.Pairwise Deferred.Before := by
  have ordered := inv.ordered (kind, n)
  rwa [here] at ordered

theorem ordered_setCall (inv : s.Inv) (ordered : phase.Ordered) (call : Kind × Nat) :
    ((s.setCall kind n phase).calls call).Ordered := by
  rw [calls_setCall]
  split_ifs
  · exact ordered
  · exact inv.ordered call

/-- A step of the listener that leaves the channels alone. -/
theorem setHub (inv : s.Inv) (feeds : hub.feeds = (s.hubs kind).feeds) (sound : hub.Sound) :
    (s.setHub kind hub).Inv :=
  ⟨linked_setHub inv.linked fun _ => by rw [feeds], inv.ordered, inv.sound_setHub sound,
    numbered_setHub inv.numbered fun _ after found => ⟨after, feeds ▸ found, rfl⟩⟩

/-- A message goes into a channel or out of it. -/
theorem setFeed (inv : s.Inv) (here : (s.hubs kind).feeds ref = some feed)
    (feeds : hub.feeds = ((s.hubs kind).setFeed ref after).feeds) (same : shape after = shape feed)
    (id : feed.id = after.id) (sound : hub.Sound) : (s.setHub kind hub).Inv := by
  refine ⟨linked_setHub inv.linked fun wanted => ?_, inv.ordered, inv.sound_setHub sound,
    numbered_setFeed inv.numbered here feeds id⟩
  rw [feeds]
  exact shape_setFeed here same

theorem take (inv : s.Inv) (here : (s.hubs kind).feeds ref = some feed) :
    (s.setHub kind ((s.hubs kind).take ref feed)).Inv :=
  inv.setFeed here rfl rfl rfl ((inv.sound kind).take here)

theorem setCall (inv : s.Inv) (ordered : phase.Ordered)
    (same : ∀ k, phase.shape k = (s.calls (kind, n)).shape k) : (s.setCall kind n phase).Inv :=
  ⟨linked_setCall inv.linked same, inv.ordered_setCall ordered, inv.sound,
    inv.numbered.below, inv.numbered.across⟩

theorem leave (inv : s.Inv)
    (here : (s.calls (kind, n)).shape = (CallPhase.checking topics).shape) :
    (s.leave kind n topics).Inv := by
  refine inv.setCall (ordered_deferred kind topics.length) fun k => ?_
  rw [here, shape_deferred]

theorem subscribe (inv : s.Inv) (here : s.calls (kind, n) = .idle) (free : s.Free) :
    (s.subscribe kind n topics).Inv := by
  have unused := unused_of_idle inv.linked here
  have sound : (subscribeAll (s.hubs kind) n s.index 0 topics).Sound :=
    sound_subscribeAll (inv.sound kind) (free kind) (fun j _ => unused j) (inv.numbered.below kind)
  exact ⟨linked_subscribe inv.linked unused, inv.ordered_setCall trivial, inv.sound_setHub sound,
    numbered_subscribe inv.numbered unused⟩

/-- A deferred function is done with its own channel. -/
theorem popped {deferred : Deferred} {k : Nat} (inv : s.Inv)
    (here : s.calls (kind, n) = .returning topics (deferred :: rest))
    (found : (s.hubs kind).feeds (n, k) = some feed)
    (own : deferred = .unsubscribe k ∨ deferred = .closeFeed k)
    (feeds : hub.feeds = ((s.hubs kind).setFeed (n, k) after).feeds) (id : feed.id = after.id)
    (same : (CallPhase.returning topics rest).shape k = some (shape after)) (sound : hub.Sound) :
    ((s.setHub kind hub).setCall kind n (.returning topics rest)).Inv := by
  have others (j : Nat) (other : j ≠ k) :
      (CallPhase.returning topics rest).shape j = (s.calls (kind, n)).shape j := by
    rw [here]
    rcases own with rfl | rfl <;> simp [CallPhase.shape, other]
  have numbered := numbered_setFeed inv.numbered found feeds id
  exact ⟨linked_setFeed inv.linked feeds others same, inv.ordered_setCall (inv.ordered_of_returning here).of_cons,
    inv.sound_setHub sound, numbered.below, numbered.across⟩

theorem unsubscribe {k : Nat} (inv : s.Inv)
    (here : s.calls (kind, n) = .returning topics (.unsubscribe k :: rest))
    (found : (s.hubs kind).feeds (n, k) = some feed) (free : s.Free) :
    ((s.setHub kind ((s.hubs kind).unsubscribe (n, k) feed)).setCall kind n
      (.returning topics rest)).Inv := by
  refine inv.popped here found (.inl rfl) rfl rfl ?_ ((inv.sound kind).unsubscribe (free kind) found)
  obtain ⟨topic, _, closed⟩ := shape_of_returning inv.linked here found
  have ordered := List.pairwise_cons.mp (inv.ordered_of_returning here)
  have once : .unsubscribe k ∉ rest := fun again => ordered.1 _ again rfl
  simp [CallPhase.shape, topic, shape, closed, once]

theorem closeFeed {k : Nat} (inv : s.Inv)
    (here : s.calls (kind, n) = .returning topics (.closeFeed k :: rest))
    (found : (s.hubs kind).feeds (n, k) = some feed) :
    ((s.setHub kind ((s.hubs kind).close (n, k) feed)).setCall kind n (.returning topics rest)).Inv := by
  obtain ⟨topic, subscribed, _⟩ := shape_of_returning inv.linked here found
  have ordered := List.pairwise_cons.mp (inv.ordered_of_returning here)
  have gone : .unsubscribe k ∉ rest := fun again => ordered.1 _ again rfl
  have once : .closeFeed k ∉ rest := fun again => ordered.1 _ again rfl
  have unsubscribed : feed.subscribed = false := by simp [subscribed, gone]
  refine inv.popped here found (.inr rfl) rfl rfl ?_ ((inv.sound kind).close found unsubscribed)
  simp [CallPhase.shape, topic, shape, unsubscribed, gone, once]

theorem closeSignal (inv : s.Inv)
    (here : s.calls (kind, n) = .returning topics (.closeSignal :: rest)) :
    (s.setCall kind n (.returning topics rest)).Inv := by
  have ordered : rest.Pairwise Deferred.Before := (inv.ordered_of_returning here).of_cons
  refine inv.setCall ordered fun k => ?_
  rw [here]
  simp [CallPhase.shape]

theorem step {action : Action} (inv : s.Inv) (step : Step s action t) : t.Inv := by
  cases step with
  | waitOnline n peerID here free => exact inv.subscribe here free
  | returnEarly n here =>
    refine inv.setCall .nil fun k => ?_
    rw [here]
    rfl
  | waitChannelActive n points here _ free => exact inv.subscribe here free
  | settle kind n here => exact inv.leave (by rw [here])
  | wait kind n here =>
    refine inv.setCall trivial fun k => ?_
    rw [here]
    rfl
  | deadline kind n here => exact inv.leave (by rw [here]; rfl)
  | online n here found queued =>
    exact (inv.take found).leave (by rw [calls_setHub, here]; rfl)
  | active n here queued => exact (inv.leave (by rw [here]; rfl)).congr rfl rfl rfl
  | unsubscribe kind n k here found free => exact inv.unsubscribe here found free
  | closeFeed kind n k here found => exact inv.closeFeed here found
  | closeSignal n here =>
    exact (inv.closeSignal here).congr rfl rfl rfl
  | receive n k here found queued =>
    exact (inv.take found).congr rfl rfl rfl
  | forward n k here opened room => exact inv.congr rfl rfl rfl
  | finish n k here found closed drained => exact inv.congr rfl rfl rfl
  | hear kind event here known => exact inv.setHub rfl (inv.sound kind).hear
  | lock kind here order => exact inv.setHub rfl ((inv.sound kind).lock order)
  | deliver kind here found opened room =>
    exact inv.setFeed found rfl rfl rfl ((inv.sound kind).deliver here found)
  | unlock kind here => exact inv.setHub rfl ((inv.sound kind).unlock here)

theorem initial : LndClient.initial.Inv where
  linked _ _ _ := rfl
  ordered _ := trivial
  sound _ := Hub.empty_sound
  numbered := by
    constructor
    · intro _ _ _ found
      cases found
    · intro _ _ _ _ found
      cases found

theorem reachable (reached : machine.Reachable s) : s.Inv := by
  refine reached.induct Inv ?_ fun _ _ _ _ inv taken => inv.step taken
  rintro _ rfl
  exact initial

theorem subscribed_iff {k : Nat} {topic : String} (inv : s.Inv) :
    (∃ feed, (s.hubs kind).feeds (n, k) = some feed ∧ feed.topic = topic ∧ feed.subscribed = true) ↔
      (s.calls (kind, n)).Subscribed k topic := by
  rw [CallPhase.subscribed_iff_shape]
  constructor
  · rintro ⟨feed, found, rfl, subscribed⟩
    refine ⟨feed.closed, ?_⟩
    rw [← inv.linked kind n k, found, ← subscribed]
    rfl
  · rintro ⟨closed, shaped⟩
    rw [← inv.linked kind n k, Option.map_eq_some_iff] at shaped
    obtain ⟨feed, found, same⟩ := shaped
    simp only [shape, Prod.mk.injEq] at same
    exact ⟨feed, found, same.1, same.2.1⟩

end Inv

end LndClient

end Lspd.Lnd
