import Lspd.Store.Nested

/-! Subscriptions to topics, kept in a map of maps behind a read-write lock, and a
listener that sends each event of a topic to the channels of all its subscribers
while it has the lock for reading. -/

namespace Lspd.Process

open Lspd.Store

/-- A subscription and its channel. `taken` counts the messages that were received
from the channel, `since` the events of the topic before the subscription. -/
structure Feed (Topic : Type) where
  topic : Topic
  id : Nat
  subscribed : Bool
  queued : Nat
  closed : Bool
  taken : Nat
  since : Nat

/-- `left` are the subscribers to which the event has still to be sent. -/
inductive Listener (Topic Ref : Type) where
  | waiting
  | wanting (topic : Topic)
  | holding (topic : Topic) (left : List Ref)

/-- `processed` counts the events of each topic that were sent to all subscribers. -/
structure Hub (Topic Ref : Type) where
  subs : Nested Topic Ref
  feeds : Ref → Option (Feed Topic)
  listener : Listener Topic Ref
  processed : Topic → Nat

namespace Hub

variable {Topic Ref : Type}

def empty : Hub Topic Ref := ⟨fun _ => none, fun _ => none, .waiting, fun _ => 0⟩

/-- No one has the lock for reading. -/
def Free (hub : Hub Topic Ref) : Prop := ∀ topic left, hub.listener ≠ .holding topic left

def setFeed [DecidableEq Ref] (hub : Hub Topic Ref) (ref : Ref) (feed : Feed Topic) : Hub Topic Ref :=
  { hub with feeds := Function.update hub.feeds ref (some feed) }

def subscribe [DecidableEq Topic] [DecidableEq Ref] (hub : Hub Topic Ref) (topic : Topic) (id : Nat)
    (ref : Ref) : Hub Topic Ref :=
  { hub.setFeed ref ⟨topic, id, true, 0, false, 0, hub.processed topic⟩ with
    subs := hub.subs.insert topic id ref }

def unsubscribe [DecidableEq Topic] [DecidableEq Ref] (hub : Hub Topic Ref) (ref : Ref)
    (feed : Feed Topic) : Hub Topic Ref :=
  { hub.setFeed ref { feed with subscribed := false } with
    subs := hub.subs.remove feed.topic feed.id }

def close [DecidableEq Ref] (hub : Hub Topic Ref) (ref : Ref) (feed : Feed Topic) : Hub Topic Ref :=
  hub.setFeed ref { feed with closed := true }

/-- A message is received from the channel of a subscriber. -/
def take [DecidableEq Ref] (hub : Hub Topic Ref) (ref : Ref) (feed : Feed Topic) : Hub Topic Ref :=
  hub.setFeed ref { feed with queued := feed.queued - 1, taken := feed.taken + 1 }

def hear (hub : Hub Topic Ref) (topic : Topic) : Hub Topic Ref :=
  { hub with listener := .wanting topic }

/-- The subscribers of a topic, in the order of the map. -/
def subscribers (hub : Hub Topic Ref) (topic : Topic) : List Ref :=
  ((hub.subs topic).getD []).map Prod.snd

def lock (hub : Hub Topic Ref) (topic : Topic) (order : List Ref) : Hub Topic Ref :=
  { hub with listener := .holding topic order }

def deliver [DecidableEq Ref] (hub : Hub Topic Ref) (topic : Topic) (ref : Ref)
    (feed : Feed Topic) (left : List Ref) : Hub Topic Ref :=
  { hub.setFeed ref { feed with queued := feed.queued + 1 } with listener := .holding topic left }

def unlock [DecidableEq Topic] (hub : Hub Topic Ref) (topic : Topic) : Hub Topic Ref :=
  { hub with
    listener := .waiting
    processed := Function.update hub.processed topic (hub.processed topic + 1) }

/-- The channel of a subscriber is open, and it has had a message for every event of
the topic, those included of which the listener has sent it one already. -/
structure Served (hub : Hub Topic Ref) (ref : Ref) (feed : Feed Topic) : Prop where
  opened : feed.closed = false
  woken : feed.since < hub.processed feed.topic → 0 < feed.queued + feed.taken
  sent : ∀ left, hub.listener = .holding feed.topic left → ref ∉ left → 0 < feed.queued + feed.taken

/-- What the operations keep: the map has one entry for each subscription, and every
subscriber is served. -/
structure Sound (hub : Hub Topic Ref) : Prop where
  tidy : hub.subs.Tidy
  listed : ∀ topic id ref, hub.subs.Has topic id ref ↔
    ∃ feed, hub.feeds ref = some feed ∧ feed.topic = topic ∧ feed.id = id ∧ feed.subscribed = true
  distinct : ∀ one two first second, hub.feeds one = some first → hub.feeds two = some second →
    first.id = second.id → one = two
  left : ∀ topic left ref, hub.listener = .holding topic left → ref ∈ left →
    ∃ feed, hub.feeds ref = some feed ∧ feed.topic = topic ∧ feed.subscribed = true
  served : ∀ ref feed, hub.feeds ref = some feed → feed.subscribed = true → hub.Served ref feed

variable {hub : Hub Topic Ref} {topic : Topic} {ref wanted : Ref} {feed after found : Feed Topic}
  {order left : List Ref}

theorem empty_sound : (empty : Hub Topic Ref).Sound where
  tidy _ _ found := nomatch found
  listed topic id ref := by simp [empty, Nested.Has]
  distinct _ _ _ _ found := nomatch found
  left _ _ _ holding := nomatch holding
  served _ _ found := nomatch found

theorem mem_subscribers (sound : hub.Sound) :
    ref ∈ hub.subscribers topic ↔
      ∃ feed, hub.feeds ref = some feed ∧ feed.topic = topic ∧ feed.subscribed = true := by
  rw [subscribers, List.mem_map]
  constructor
  · rintro ⟨⟨id, other⟩, member, rfl⟩
    obtain ⟨feed, found, here, _, subscribed⟩ :=
      (sound.listed topic id other).mp (Nested.has_iff_getD.mpr member)
    exact ⟨feed, found, here, subscribed⟩
  · rintro ⟨feed, found, here, subscribed⟩
    have has := (sound.listed topic feed.id ref).mpr ⟨feed, found, here, rfl, subscribed⟩
    exact ⟨(feed.id, ref), Nested.has_iff_getD.mp has, rfl⟩

/-- No subscriber gets an event twice. -/
theorem nodup_subscribers (sound : hub.Sound) : (hub.subscribers topic).Nodup := by
  rw [subscribers]
  cases found : hub.subs topic with
  | none => exact List.nodup_nil
  | some entries =>
    have has (entry : Nat × Ref) (member : entry ∈ entries) : hub.subs.Has topic entry.1 entry.2 :=
      Nested.has_iff_getD.mpr (by simpa [found] using member)
    refine (sound.tidy topic entries found).2.of_map.map_on fun one first two second same => ?_
    obtain ⟨feed, at_, _, id, _⟩ := (sound.listed topic one.1 one.2).mp (has one first)
    obtain ⟨twin, twice, _, key, _⟩ := (sound.listed topic two.1 two.2).mp (has two second)
    rw [same] at at_
    obtain rfl := Option.some.inj (at_.symm.trans twice)
    exact Prod.ext (id.symm.trans key) same

/-- Those to whom an event has still to be sent are subscribers. -/
theorem Sound.subscribed_of_left (sound : hub.Sound) (holding : hub.listener = .holding topic left)
    (member : ref ∈ left) (here : hub.feeds ref = some feed) : feed.subscribed = true := by
  obtain ⟨found, at_, _, subscribed⟩ := sound.left topic left ref holding member
  obtain rfl := Option.some.inj (here.symm.trans at_)
  exact subscribed

theorem Sound.hear (sound : hub.Sound) : (hub.hear topic).Sound := by
  refine ⟨sound.tidy, sound.listed, sound.distinct, (fun _ _ _ same => nomatch same), ?_⟩
  intro wanted found at_ subscribed
  have served := sound.served wanted found at_ subscribed
  exact ⟨served.opened, served.woken, fun _ same => nomatch same⟩

/-- At first the event is to be sent to all subscribers. -/
theorem Sound.lock (sound : hub.Sound) (perm : order.Perm (hub.subscribers topic)) :
    (hub.lock topic order).Sound := by
  refine ⟨sound.tidy, sound.listed, sound.distinct, ?_, ?_⟩
  · intro other left wanted same member
    obtain ⟨rfl, rfl⟩ := Listener.holding.inj same
    exact (mem_subscribers sound).mp (perm.mem_iff.mp member)
  · intro wanted found at_ subscribed
    have served := sound.served wanted found at_ subscribed
    refine ⟨served.opened, served.woken, fun left same absent => ?_⟩
    obtain ⟨here, rfl⟩ := Listener.holding.inj same
    have member := (mem_subscribers sound).mpr ⟨found, at_, here.symm, subscribed⟩
    exact absurd (perm.mem_iff.mpr member) absent

variable [DecidableEq Ref]

theorem feeds_setFeed : (hub.setFeed ref after).feeds wanted =
    if wanted = ref then some after else hub.feeds wanted := by
  rw [setFeed]
  exact Function.update_apply ..

/-- What is true between each channel before and itself or the one put in its place is true
between all channels before and after. -/
theorem exists_of_setFeed (related : Feed Topic → Feed Topic → Prop) (same : ∀ feed, related feed feed)
    (here : hub.feeds ref = some feed) (at_ : (hub.setFeed ref after).feeds wanted = some found)
    (own : related feed after) :
    ∃ before, hub.feeds wanted = some before ∧ related before found := by
  rw [feeds_setFeed] at at_
  split_ifs at at_ with equal
  · rw [equal, ← Option.some.inj at_]
    exact ⟨feed, here, own⟩
  · exact ⟨found, at_, same found⟩

/-- Ids stay distinct when the one that is put in is no other's. -/
theorem distinct_setFeed {one two : Ref} {first second : Feed Topic} (sound : hub.Sound)
    (own : ∀ other found, other ≠ ref → hub.feeds other = some found → found.id ≠ after.id)
    (foundFirst : (hub.setFeed ref after).feeds one = some first)
    (foundSecond : (hub.setFeed ref after).feeds two = some second)
    (equal : first.id = second.id) : one = two := by
  rw [feeds_setFeed] at foundFirst foundSecond
  split_ifs at foundFirst foundSecond with atFirst atSecond atSecond
  · rw [atFirst, atSecond]
  · obtain rfl := Option.some.inj foundFirst
    exact absurd equal.symm (own two second atSecond foundSecond)
  · obtain rfl := Option.some.inj foundSecond
    exact absurd equal (own one first atFirst foundFirst)
  · exact sound.distinct one two first second foundFirst foundSecond equal

/-- A channel is closed, or a message put into it or taken from it. -/
theorem Sound.setFeed (sound : hub.Sound) (here : hub.feeds ref = some feed)
    (topic : after.topic = feed.topic) (id : after.id = feed.id)
    (subscribed : after.subscribed = feed.subscribed)
    (served : after.subscribed = true → hub.Served ref after) : (hub.setFeed ref after).Sound := by
  have exists_iff (goal : Feed Topic → Prop) (kept : goal after ↔ goal feed) (wanted : Ref) :
      (∃ found, (hub.setFeed ref after).feeds wanted = some found ∧ goal found) ↔
        ∃ found, hub.feeds wanted = some found ∧ goal found := by
    rw [feeds_setFeed]
    split_ifs with same
    · subst same
      simp [here, kept]
    · rfl
  refine ⟨sound.tidy, ?_, ?_, ?_, ?_⟩
  · intro other key wanted
    rw [exists_iff (fun found => found.topic = other ∧ found.id = key ∧ found.subscribed = true)
      (by rw [topic, id, subscribed])]
    exact sound.listed other key wanted
  · intro one two first second
    refine distinct_setFeed sound fun other found different at_ equal => different ?_
    exact sound.distinct other ref found feed at_ here (equal.trans id)
  · intro other left wanted holding member
    rw [exists_iff (fun found => found.topic = other ∧ found.subscribed = true)
      (by rw [topic, subscribed])]
    exact sound.left other left wanted holding member
  · intro wanted found at_ now
    rw [feeds_setFeed] at at_
    split_ifs at at_ with same
    · obtain rfl := Option.some.inj at_
      subst same
      exact ⟨(served now).opened, (served now).woken, (served now).sent⟩
    · have served := sound.served wanted found at_ now
      exact ⟨served.opened, served.woken, served.sent⟩

theorem Sound.close (sound : hub.Sound) (here : hub.feeds ref = some feed)
    (gone : feed.subscribed = false) : (hub.close ref feed).Sound := by
  refine sound.setFeed here rfl rfl rfl fun subscribed => ?_
  rw [gone] at subscribed
  cases subscribed

theorem Sound.take (sound : hub.Sound) (here : hub.feeds ref = some feed) :
    (hub.take ref feed).Sound := by
  refine sound.setFeed here rfl rfl rfl fun subscribed => ?_
  have served := sound.served ref feed here subscribed
  have positive : 0 < feed.queued - 1 + (feed.taken + 1) := by omega
  exact ⟨served.opened, fun _ => positive, fun _ _ _ => positive⟩

/-- The listener goes on to the next subscriber once this one has its message. -/
theorem Sound.deliver (sound : hub.Sound) (holding : hub.listener = .holding topic (ref :: left))
    (here : hub.feeds ref = some feed) : (hub.deliver topic ref feed left).Sound := by
  have positive : 0 < feed.queued + 1 + feed.taken := by omega
  have sound : (hub.setFeed ref { feed with queued := feed.queued + 1 }).Sound :=
    sound.setFeed here rfl rfl rfl fun subscribed =>
      ⟨(sound.served ref feed here subscribed).opened, fun _ => positive, fun _ _ _ => positive⟩
  refine ⟨sound.tidy, sound.listed, sound.distinct, ?_, ?_⟩
  · intro other rest wanted same member
    obtain ⟨rfl, rfl⟩ := Listener.holding.inj same
    exact sound.left topic (ref :: left) wanted holding (List.mem_cons_of_mem _ member)
  · intro wanted found at_ subscribed
    have served := sound.served wanted found at_ subscribed
    refine ⟨served.opened, served.woken, fun rest same absent => ?_⟩
    obtain ⟨rfl, rfl⟩ := Listener.holding.inj same
    by_cases own : wanted = ref
    · subst own
      rw [Hub.deliver, feeds_setFeed, if_pos rfl] at at_
      obtain rfl := Option.some.inj at_
      exact positive
    · exact served.sent (ref :: left) holding (by simp [own, absent])

section Topics

variable [DecidableEq Topic]

/-- A new subscription, made while no event is being sent. -/
theorem Sound.subscribe (sound : hub.Sound) (free : hub.Free) {id : Nat}
    (unused : hub.feeds ref = none)
    (fresh : ∀ other feed, hub.feeds other = some feed → feed.id ≠ id) :
    (hub.subscribe topic id ref).Sound := by
  have feeds (wanted : Ref) : (hub.subscribe topic id ref).feeds wanted =
      if wanted = ref then some ⟨topic, id, true, 0, false, 0, hub.processed topic⟩
      else hub.feeds wanted := feeds_setFeed
  refine ⟨sound.tidy.insert, ?_, ?_, ?_, ?_⟩
  · intro other key wanted
    rw [feeds, Hub.subscribe, Nested.has_insert, sound.listed]
    split_ifs with same
    · subst same
      simp only [unused, reduceCtorEq, false_and, exists_false, or_false, Option.some.injEq,
        exists_eq_left', and_true]
      rw [@eq_comm _ topic, @eq_comm _ id]
    · simp only [same, and_false, false_or, and_iff_left_iff_imp]
      rintro ⟨feed, found, rfl, rfl, _⟩ ⟨_, equal⟩
      exact fresh wanted feed found equal
  · intro one two first second
    exact distinct_setFeed sound fun other found _ at_ => fresh other found at_
  · intro other left wanted holding
    exact absurd holding (free other left)
  · intro wanted feed found subscribed
    rw [feeds] at found
    split_ifs at found with same
    · obtain rfl := Option.some.inj found
      exact ⟨rfl, fun later => absurd later (Nat.lt_irrefl _),
        fun left holding => absurd holding (free topic left)⟩
    · have served := sound.served wanted feed found subscribed
      exact ⟨served.opened, served.woken, served.sent⟩

theorem Sound.unsubscribe (sound : hub.Sound) (free : hub.Free) (here : hub.feeds ref = some feed) :
    (hub.unsubscribe ref feed).Sound := by
  have feeds (wanted : Ref) : (hub.unsubscribe ref feed).feeds wanted =
      if wanted = ref then some { feed with subscribed := false } else hub.feeds wanted :=
    feeds_setFeed
  refine ⟨sound.tidy.remove, ?_, ?_, ?_, ?_⟩
  · intro other key wanted
    rw [feeds, Hub.unsubscribe, Nested.has_remove, sound.listed]
    split_ifs with same
    · subst same
      simp only [here, Option.some.injEq, exists_eq_left', Bool.false_eq_true, and_false, iff_false]
      rintro ⟨⟨rfl, rfl, _⟩, other⟩
      exact other ⟨rfl, rfl⟩
    · simp only [and_iff_left_iff_imp]
      rintro ⟨found, at_, rfl, rfl, _⟩ ⟨_, equal⟩
      exact same (sound.distinct wanted ref found feed at_ here equal)
  · intro one two first second
    refine distinct_setFeed sound fun other found different at_ equal => different ?_
    exact sound.distinct other ref found feed at_ here equal
  · intro other left wanted holding
    exact absurd holding (free other left)
  · intro wanted found at_ subscribed
    rw [feeds] at at_
    split_ifs at at_ with same
    · obtain rfl := Option.some.inj at_
      cases subscribed
    · have served := sound.served wanted found at_ subscribed
      exact ⟨served.opened, served.woken, served.sent⟩

omit [DecidableEq Ref] in
/-- With the last message sent, the event is processed. -/
theorem Sound.unlock (sound : hub.Sound) (holding : hub.listener = .holding topic []) :
    (hub.unlock topic).Sound := by
  refine ⟨sound.tidy, sound.listed, sound.distinct, (fun _ _ _ same => nomatch same), ?_⟩
  intro wanted found at_ subscribed
  have served := sound.served wanted found at_ subscribed
  refine ⟨served.opened, fun later => ?_, fun _ same => nomatch same⟩
  by_cases here : found.topic = topic
  · exact served.sent [] (by rw [here, holding]) List.not_mem_nil
  · simp only [Hub.unlock, Function.update_of_ne here] at later
    exact served.woken later

end Topics

end Hub

end Lspd.Process
