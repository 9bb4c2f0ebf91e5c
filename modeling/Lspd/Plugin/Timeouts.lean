import Lspd.Plugin.Delivery

/-! When the server releases an htlc by itself. The deadline of an htlc is set
when it is enqueued and when it is replayed, not when a subscriber is lost. -/

namespace Lspd.Plugin

open Lspd.Common Lspd.Store

variable {u s later : State} {action : Action} {ns : Nat} {msg : HtlcAcceptedMsg}

/-- A sampled channel tells whether a subscriber came since; `htlcStream` was nil
at the sample, and still is if none came. -/
def State.Current (s : State) (ns : Nat) : Prop :=
  ns ≤ s.htlcnewSubscriber ∧ (ns = s.htlcnewSubscriber → s.htlcStream = none)

structure Watching (s : State) : Prop where
  requests : ∀ msg ns, s.requests = .waiting msg ns → s.Current ns
  responses : ∀ ns oldest, s.responses = .waiting ns oldest → s.Current ns

theorem Watching.start (subscriberTimeout now : Time) :
    Watching (.start subscriberTimeout now) where
  requests := by simp [State.start]
  responses := by simp [State.start]

/-- A new subscriber closes the channels sampled so far. -/
theorem State.Current.subscribe (current : s.Current ns)
    (closed : later.htlcnewSubscriber = s.htlcnewSubscriber + 1) : later.Current ns := by
  obtain ⟨bound, _⟩ := current
  constructor
  · omega
  · intro same
    omega

theorem State.Current.remove (current : s.Current ns)
    (same : later.htlcnewSubscriber = s.htlcnewSubscriber) (free : later.htlcStream = none) :
    later.Current ns :=
  ⟨same ▸ current.1, fun _ => free⟩

theorem State.current_sample (free : s.htlcStream = none) : s.Current s.htlcnewSubscriber :=
  ⟨Nat.le_refl _, fun _ => free⟩

theorem Watching.step (watching : Watching s) (step : Step s action later) : Watching later := by
  obtain ⟨requests, responses⟩ := watching
  cases step with
  | tick _ | call _ _ _ | enqueue _ _ | subscribeError _ _ _ _ | refuse _ _ | disconnect _
  | dequeue _ | delete _ _ =>
    exact ⟨requests, responses⟩
  | take _ _ | sampleStream _ _ | wake _ _ | expire _ _ | release _ _ | deliver _ _
  | sendError _ =>
    exact ⟨by simp, responses⟩
  | pollStream _ _ | wakeReceive _ _ | expireOldest _ _ | answer _ _ _ | receiveError _
  | push _ _ =>
    exact ⟨requests, by simp⟩
  | sampleNone here free =>
    refine ⟨?_, responses⟩
    intro other ns same
    obtain ⟨_, rfl⟩ := Requests.waiting.inj same
    exact State.current_sample free
  | pollNone here free =>
    refine ⟨requests, ?_⟩
    intro ns oldest same
    obtain ⟨rfl, _⟩ := Responses.waiting.inj same
    exact State.current_sample free
  | subscribe stream new free alive =>
    exact ⟨fun other ns here => (requests other ns here).subscribe rfl,
      fun ns oldest here => (responses ns oldest here).subscribe rfl⟩
  | remove stream here finished =>
    exact ⟨fun other ns here => (requests other ns here).remove rfl rfl,
      fun ns oldest here => (responses ns oldest here).remove rfl rfl⟩

theorem watching_of_reachable (reachable : Reachable s) : Watching s :=
  holds_of_reachable .start (fun _ watching step => watching.step step) reachable

/-- What a run leaves of a state it went through: time has passed, and if a
subscriber was registered there, one still is or was removed since. -/
structure Since (u s : State) : Prop where
  timeout : s.subscriberTimeout = u.subscriberTimeout
  clock : u.now ≤ s.now
  subscriber : u.htlcStream ≠ none →
    s.htlcStream ≠ none ∨ ∃ removed, s.removedAt = some removed ∧ u.now ≤ removed

theorem Since.refl (s : State) : Since s s :=
  ⟨rfl, Int.le_refl _, fun registered => .inl registered⟩

theorem Since.step (since : Since u s) (step : Step s action later) : Since u later := by
  obtain ⟨timeout, clock, subscriber⟩ := since
  cases step with
  | call _ _ _ | enqueue _ _ | take _ _ | sampleNone _ _ | sampleStream _ _ | wake _ _
  | expire _ _ | release _ _ | deliver _ _ | sendError _ | subscribeError _ _ _ _ | refuse _ _
  | disconnect _ | pollNone _ _ | pollStream _ _ | wakeReceive _ _ | expireOldest _ _
  | answer _ _ _ | receiveError _ | push _ _ | dequeue _ | delete _ _ =>
    exact ⟨timeout, clock, subscriber⟩
  | tick elapsed =>
    have passed : s.now ≤ s.now + elapsed := Int.le_add_of_nonneg_right (Int.natCast_nonneg _)
    exact ⟨timeout, Int.le_trans clock passed, subscriber⟩
  | subscribe stream new free alive =>
    exact ⟨timeout, clock, fun _ => .inl (Option.some_ne_none stream)⟩
  | remove stream here finished =>
    exact ⟨timeout, clock, fun _ => .inr ⟨s.now, rfl, clock⟩⟩

theorem since_of_reaches (run : Reaches u s) : Since u s :=
  run.induct (Since u) (.refl u) fun _ _ _ since taken => since.step taken

/-- The htlc that a transition releases because its timer fired, with the channel
on which the goroutine waited for a subscriber. -/
def State.timedOut (s : State) : Action → Option (Nat × HtlcAcceptedMsg)
  | .expire =>
    match s.requests with
    | .waiting msg ns => some (ns, msg)
    | _ => none
  | .expireOldest =>
    match s.responses with
    | .waiting ns (some oldest) => some (ns, oldest)
    | _ => none
  | _ => none

theorem Step.late (step : Step s action later) (out : s.timedOut action = some (ns, msg)) :
    msg.timeout ≤ s.now := by
  cases step with
  | expire here late =>
    simp only [State.timedOut, here, Option.some.injEq, Prod.mk.injEq] at out
    obtain ⟨_, rfl⟩ := out
    exact late
  | expireOldest here late =>
    simp only [State.timedOut, here, Option.some.injEq, Prod.mk.injEq] at out
    obtain ⟨_, rfl⟩ := out
    exact late
  | _ => exact nomatch out

theorem Watching.timedOut (watching : Watching s) (out : s.timedOut action = some (ns, msg)) :
    s.Current ns := by
  cases action with
  | expire =>
    cases here : s.requests with
    | waiting held sampled =>
      simp only [State.timedOut, here, Option.some.injEq, Prod.mk.injEq] at out
      obtain ⟨rfl, _⟩ := out
      exact watching.requests held sampled here
    | _ => simp [State.timedOut, here] at out
  | expireOldest =>
    cases here : s.responses with
    | waiting sampled oldest =>
      cases oldest with
      | none => simp [State.timedOut, here] at out
      | some oldest =>
        simp only [State.timedOut, here, Option.some.injEq, Prod.mk.injEq] at out
        obtain ⟨rfl, _⟩ := out
        exact watching.responses sampled (some oldest) here
    | _ => simp [State.timedOut, here] at out
  | _ => exact nomatch out

/-- No subscriber came since the goroutine looked, and the deadline of the htlc
was set after the last subscriber was removed. -/
def State.Waited (s : State) (ns : Nat) (msg : HtlcAcceptedMsg) : Prop :=
  ns = s.htlcnewSubscriber ∧
    ∀ removed ∈ s.removedAt, removed + s.subscriberTimeout ≤ msg.timeout

instance (s : State) (ns : Nat) (msg : HtlcAcceptedMsg) : Decidable (s.Waited ns msg) :=
  inferInstanceAs (Decidable (_ ∧ _))

/-- In every run, an htlc that is released by its timer when it has `Waited` is
released after a whole `subscriberTimeout` without a subscriber. -/
theorem released_unsubscribed (before : Reachable u) (run : Reaches u s)
    (step : Step s action later) (out : s.timedOut action = some (ns, msg))
    (waited : s.Waited ns msg) (recent : s.now - s.subscriberTimeout < u.now) :
    u.htlcStream = none := by
  obtain ⟨current, deadline⟩ := waited
  have watching := watching_of_reachable (before.trans run)
  have free : s.htlcStream = none := (watching.timedOut out).2 current
  by_contra registered
  rcases (since_of_reaches run).subscriber registered with still | ⟨removed, last, after⟩
  · exact still free
  · have early : u.now ≤ s.now - s.subscriberTimeout :=
      calc u.now ≤ removed := after
        _ ≤ s.now - s.subscriberTimeout :=
          Int.le_sub_right_of_add_le (Int.le_trans (deadline removed last) (step.late out))
    exact Int.not_le.mpr recent early

/-- The htlc arrives after the subscriber was lost. -/
theorem released_unsubscribed_sample :
    ∃ u s later, Reachable u ∧ Reaches u s ∧ Step s .expire later ∧
      s.timedOut .expire = some (1, ⟨"1", sampleAccepted, 105⟩) ∧
      s.Waited 1 ⟨"1", sampleAccepted, 105⟩ ∧ s.removedAt = some 0 ∧
      s.now - s.subscriberTimeout < u.now ∧ u.htlcStream = none := by
  have subscribed := (reachable_start 100 0).step (.subscribe 0 rfl rfl (.inl rfl))
  have removed := (subscribed.step (.disconnect 0)).step (.remove 0 rfl rfl)
  have called := (removed.step (.tick 5)).step (.call "1" sampleAccepted (by decide))
  have taken := (called.step (.enqueue (.head _) (by decide))).step (.take rfl rfl)
  have waiting := (taken.step (.sampleNone rfl rfl)).step (.tick 50)
  have run := waiting.here.step (.tick 50)
  exact ⟨_, _, _, waiting, run, .expire rfl (by decide), rfl, by decide, rfl, by decide,
    released_unsubscribed waiting run (.expire rfl (by decide)) rfl (by decide) (by decide)⟩

/-- The subscriber works on the htlc beyond its deadline and disconnects: the
htlc is released at the very time the subscriber was still registered. -/
theorem released_at_disconnect :
    ∃ u s later, Reachable u ∧ Reaches u s ∧ Step s .expireOldest later ∧
      s.now - s.subscriberTimeout < u.now ∧ u.now = s.now ∧ u.htlcStream = some 0 ∧
        u.inflightIds = ["1"] := by
  have called := (reachable_start 100 0).step (.call "1" sampleAccepted (by decide))
  have queued := called.step (.enqueue (.head _) (by decide))
  have subscribed := queued.step (.subscribe 0 rfl rfl (.inl rfl))
  have sampled := (subscribed.step (.take rfl rfl)).step (.sampleStream rfl rfl)
  have working := (sampled.step (.deliver rfl rfl)).step (.tick 150)
  have disconnected := working.here.step (.disconnect 0)
  have removed := disconnected.step (.remove 0 rfl rfl)
  have waiting := removed.step (.pollNone rfl rfl)
  exact ⟨_, _, _, working, waiting, .expireOldest rfl (by decide), by decide, rfl, rfl, by decide⟩

end Lspd.Plugin
