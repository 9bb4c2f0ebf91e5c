import Lspd.Process.Broadcast

/-! Counting the messages of the subscribers: each of them gets every event of its topic
since its subscription, and gets it once. -/

namespace Lspd.Process.Hub

open Lspd.Store

variable {Topic Ref : Type} [DecidableEq Topic] [DecidableEq Ref]

/-- The event that is being sent counts for those that have got it already. -/
def sending (hub : Hub Topic Ref) (ref : Ref) (topic : Topic) : Nat :=
  match hub.listener with
  | .holding other left => if other = topic ∧ ref ∉ left then 1 else 0
  | _ => 0

/-- Every subscriber has had as many messages as there were events. -/
structure Exact (hub : Hub Topic Ref) : Prop where
  once : ∀ topic left, hub.listener = .holding topic left → left.Nodup
  counted : ∀ ref feed, hub.feeds ref = some feed → feed.subscribed = true →
    feed.since + (feed.queued + feed.taken) = hub.processed feed.topic + hub.sending ref feed.topic

variable {hub : Hub Topic Ref} {topic : Topic} {ref : Ref} {feed after : Feed Topic}
  {order left : List Ref}

theorem sending_of_free (free : hub.Free) (ref : Ref) (topic : Topic) : hub.sending ref topic = 0 := by
  unfold sending
  split
  · rename_i other left holding
    exact absurd holding (free other left)
  · rfl

theorem sending_of_holding (holding : hub.listener = .holding topic left) (ref : Ref)
    (wanted : Topic) :
    hub.sending ref wanted = if topic = wanted ∧ ref ∉ left then 1 else 0 := by
  rw [sending, holding]

omit [DecidableEq Topic] [DecidableEq Ref] in
theorem free_of_waiting (waiting : hub.listener = .waiting) : hub.Free := by
  intro topic left holding
  cases waiting.symm.trans holding

omit [DecidableEq Topic] [DecidableEq Ref] in
theorem free_of_wanting (wanting : hub.listener = .wanting topic) : hub.Free := by
  intro other left holding
  cases wanting.symm.trans holding

theorem empty_exact : (empty : Hub Topic Ref).Exact :=
  ⟨nofun, nofun⟩

theorem Exact.hear (counts : hub.Exact) (waiting : hub.listener = .waiting) :
    (hub.hear topic).Exact := by
  refine ⟨nofun, fun ref feed here subscribed => ?_⟩
  rw [counts.counted ref feed here subscribed, sending_of_free (free_of_waiting waiting)]
  rfl

/-- At first nobody has got the event. -/
theorem Exact.lock (counts : hub.Exact) (sound : hub.Sound)
    (wanting : hub.listener = .wanting topic) (perm : order.Perm (hub.subscribers topic)) :
    (hub.lock topic order).Exact := by
  constructor
  · intro other left holding
    obtain ⟨rfl, rfl⟩ := Listener.holding.inj holding
    exact perm.nodup_iff.mpr (nodup_subscribers sound)
  · intro ref feed here subscribed
    have nobody : ¬ (topic = feed.topic ∧ ref ∉ order) := by
      rintro ⟨same, absent⟩
      have member := (mem_subscribers sound).mpr ⟨feed, here, same.symm, subscribed⟩
      exact absent (perm.mem_iff.mpr member)
    rw [sending_of_holding rfl, if_neg nobody, counts.counted ref feed here subscribed,
      sending_of_free (free_of_wanting wanting)]
    rfl

/-- A change of one feed that keeps its sum. -/
theorem Exact.setFeed (counts : hub.Exact) (here : hub.feeds ref = some feed)
    (kept : after.subscribed = true → feed.subscribed = true ∧ after.topic = feed.topic ∧
      after.since + (after.queued + after.taken) = feed.since + (feed.queued + feed.taken)) :
    (hub.setFeed ref after).Exact := by
  refine ⟨counts.once, fun wanted found at_ subscribed => ?_⟩
  rw [feeds_setFeed] at at_
  split_ifs at at_ with same
  · obtain rfl := Option.some.inj at_
    subst same
    obtain ⟨before, topic, sum⟩ := kept subscribed
    rw [sum, topic]
    exact counts.counted wanted feed here before
  · exact counts.counted wanted found at_ subscribed

theorem Exact.take (counts : hub.Exact) (here : hub.feeds ref = some feed)
    (positive : 0 < feed.queued) : (hub.take ref feed).Exact := by
  refine counts.setFeed here fun subscribed => ⟨subscribed, rfl, ?_⟩
  change feed.since + (feed.queued - 1 + (feed.taken + 1)) = _
  omega

theorem Exact.close (counts : hub.Exact) (here : hub.feeds ref = some feed) :
    (hub.close ref feed).Exact :=
  counts.setFeed here fun subscribed => ⟨subscribed, rfl, rfl⟩

theorem Exact.unsubscribe (counts : hub.Exact) (here : hub.feeds ref = some feed) :
    (hub.unsubscribe ref feed).Exact := by
  have gone : (hub.setFeed ref { feed with subscribed := false }).Exact :=
    counts.setFeed here nofun
  exact ⟨gone.once, gone.counted⟩

/-- The one that gets the message gets no other for this event. -/
theorem Exact.deliver (counts : hub.Exact) (sound : hub.Sound)
    (holding : hub.listener = .holding topic (ref :: left)) (here : hub.feeds ref = some feed) :
    (hub.deliver topic ref feed left).Exact := by
  obtain ⟨absent, distinct⟩ := List.nodup_cons.mp (counts.once topic (ref :: left) holding)
  obtain ⟨found, at_, own, subscribed⟩ := sound.left topic (ref :: left) ref holding (.head _)
  obtain rfl := Option.some.inj (here.symm.trans at_)
  constructor
  · intro other rest same
    obtain ⟨rfl, rfl⟩ := Listener.holding.inj same
    exact distinct
  · intro wanted found at_ now
    rw [sending_of_holding rfl]
    change found.since + (found.queued + found.taken) = hub.processed found.topic + _
    rw [Hub.deliver, feeds_setFeed] at at_
    split_ifs at at_ with same
    · obtain rfl := Option.some.inj at_
      subst same
      have before := counts.counted wanted feed here subscribed
      rw [sending_of_holding holding, if_neg (by simp)] at before
      rw [if_pos ⟨own.symm, absent⟩]
      change feed.since + (feed.queued + 1 + feed.taken) = hub.processed feed.topic + 1
      omega
    · have before := counts.counted wanted found at_ now
      rw [sending_of_holding holding] at before
      rw [before]
      simp [same]

theorem Exact.unlock (counts : hub.Exact) (holding : hub.listener = .holding topic []) :
    (hub.unlock topic).Exact := by
  refine ⟨nofun, fun wanted found at_ subscribed => ?_⟩
  have before := counts.counted wanted found at_ subscribed
  rw [sending_of_holding holding] at before
  rw [before]
  by_cases same : topic = found.topic
  · subst same
    simp [Hub.unlock, sending]
  · simp [Hub.unlock, sending, same, Function.update_of_ne (Ne.symm same)]

/-- A new subscriber has had nothing, and nothing is being sent. -/
theorem Exact.subscribe (counts : hub.Exact) (free : hub.Free) (id : Nat) :
    (hub.subscribe topic id ref).Exact := by
  have freed : (hub.subscribe topic id ref).Free := free
  refine ⟨fun other left holding => absurd holding (free other left), ?_⟩
  intro wanted found at_ subscribed
  rw [sending_of_free freed]
  rw [Hub.subscribe, feeds_setFeed] at at_
  split_ifs at at_ with same
  · obtain rfl := Option.some.inj at_
    rfl
  · have before := counts.counted wanted found at_ subscribed
    rwa [sending_of_free free] at before

/-- A subscriber with a message has been sent an event after it subscribed. -/
theorem Exact.happened (counts : hub.Exact) (here : hub.feeds ref = some feed)
    (subscribed : feed.subscribed = true) (positive : 0 < feed.queued + feed.taken) :
    feed.since < hub.processed feed.topic ∨
      ∃ left, hub.listener = .holding feed.topic left ∧ ref ∉ left := by
  have counted := counts.counted ref feed here subscribed
  unfold sending at counted
  split at counted
  · rename_i other left holding
    split_ifs at counted with got
    · obtain ⟨rfl, absent⟩ := got
      exact .inr ⟨left, holding, absent⟩
    · exact .inl (by omega)
  · exact .inl (by omega)

end Lspd.Process.Hub
