import Lspd.Lightning.ChannelQueries
import Lspd.Process.Timed

/-! The two waits of the cln client: they ask the node again and again, with a pause
between, until it tells what they wait for or the deadline has passed. -/

namespace Lspd.Cln

open Lspd.Common Lspd.Lightning Lspd.Process
open Lspd.Process.Program (forever Timely Concludes TimedRuns iteration timely_ask timely_bind
  timely_forever timely_pure)

namespace Waiting

/-- What the waits read of a peer that `ListPeers` lists. -/
structure Peer where
  connected : Bool

/-- Which of the two timers of the `select` was taken. -/
inductive Timer where
  | deadline
  | pollingInterval

/-- The calls of the waits. `select` waits for the first of the deadline and the
polling interval. -/
inductive Op where
  | listPeers (id : Bytes)
  | listPeerChannels (id : Bytes)
  | select (deadline : Time)

abbrev Reply : Op → Type
  | .listPeers _ => Except String (List Peer)
  | .listPeerChannels _ => Except String (List PeerChannel)
  | .select _ => Timer

abbrev Code (α : Type) := Program Op Reply α

abbrev ask (op : Op) : Code (Reply op) := Program.ask op

/-- 400 milliseconds. -/
def pollingInterval : Time := 400000000

theorem pollingInterval_pos : (0 : Int) < pollingInterval := by decide

/-- Only the first of the listed peers is looked at. -/
def isConnected (destination : Bytes) : Code (Except String Bool) := do
  match ← ask (.listPeers destination) with
  | .error err =>
    return .error s!"CLN: client.ListPeers({encodeToString destination}) error: {err}"
  | .ok [] => return .ok false
  | .ok (peer :: _) => return .ok peer.connected

/-- An error of the call is no connection. -/
def online (peerID : Bytes) : Code Bool := do
  match ← isConnected peerID with
  | .ok connected => return connected
  | .error _ => return false

def isOpen (c : PeerChannel) : Bool := c.state.any fun state => openStatuses.contains state

def active (peerID : Bytes) : Code Bool := do
  match ← ask (.listPeerChannels peerID) with
  | .ok channels => return channels.any isOpen
  | .error _ => return false

/-- The loop of both waits. -/
def waitUntil (ready : Code Bool) (deadline : Time) : Code (Except String Unit) :=
  forever (fun _ : Unit => do
    if ← ready then return .inr (.ok ())
    else match ← ask (.select deadline) with
      | .deadline => return .inr (.error "timeout")
      | .pollingInterval => return .inl ()) ()

def waitOnline (peerID : Bytes) (deadline : Time) : Code (Except String Unit) :=
  waitUntil (online peerID) deadline

def waitChannelActive (peerID : Bytes) (deadline : Time) : Code (Except String Unit) :=
  waitUntil (active peerID) deadline

/-- The node over time: whether a peer is connected, or has an open channel, unless the
node does not answer. -/
structure Timeline where
  connected : Bytes → Int → Option Bool
  hasOpen : Bytes → Int → Option Bool

/-- How long the node takes for an answer, and how late the timers may be. With timers
that are late by a whole interval, a `select` behind the deadline could go on polling. -/
structure Times where
  latency : Int
  delay : Int
  latency_nonneg : 0 ≤ latency
  delay_nonneg : 0 ≤ delay
  prompt : delay < pollingInterval

/-- An answer tells how things were while the call was under way. -/
def Reflects (truth : Int → Option Bool) (now later : Int) (told : Option Bool) : Prop :=
  ∃ moment, now ≤ moment ∧ moment ≤ later ∧ truth moment = told

def timing (line : Timeline) (times : Times) : Timing Op Reply := fun now op reply later =>
  match op, reply with
  | .listPeers id, answer => now ≤ later ∧ later ≤ now + times.latency ∧
      Reflects (line.connected id) now later
        (answer.toOption.map fun peers => peers.head?.any Peer.connected)
  | .listPeerChannels id, answer => now ≤ later ∧ later ≤ now + times.latency ∧
      Reflects (line.hasOpen id) now later (answer.toOption.map fun channels => channels.any isOpen)
  | .select deadline, .deadline => max now deadline ≤ later ∧
      later ≤ min (max now deadline) (now + pollingInterval) + times.delay
  | .select deadline, .pollingInterval => now + pollingInterval ≤ later ∧
      later ≤ min (max now deadline) (now + pollingInterval) + times.delay

/-- The longest a change of the node goes unnoticed, up to the answer to the poll that
notices it. -/
def Times.notice (times : Times) : Int := 2 * times.latency + pollingInterval + times.delay

/-- What a wait from `start` on may come to. -/
structure Waited (times : Times) (truth : Int → Option Bool) (start deadline later : Int)
    (result : Except String Unit) : Prop where
  inTime : start ≤ later ∧
    later ≤ max start (deadline + times.delay) + times.latency + times.delay
  seen : result = .ok () → Reflects truth start later (some true)
  timeout : ∀ err, result = .error err → err = "timeout" ∧ deadline ≤ later
  found : ∀ since, start ≤ since →
    (∀ moment, since ≤ moment → moment ≤ since + times.notice → truth moment = some true) →
    since + times.notice ≤ deadline + times.latency →
    result = .ok () ∧ later ≤ since + times.notice

section Timely

variable {line : Timeline} {times : Times} {peerID : Bytes} {now : Int}

/-- A poll that takes its time and tells the truth. -/
def Polls (timed : Timing Op Reply) (times : Times) (truth : Int → Option Bool)
    (ready : Code Bool) : Prop :=
  ∀ now, Timely timed (fun later told => now ≤ later ∧ later ≤ now + times.latency ∧
    ∃ seen, Reflects truth now later seen ∧ told = some (seen.getD false)) now ready

theorem isConnected_timely (now : Int) :
    Timely (timing line times) (fun later told => now ≤ later ∧ later ≤ now + times.latency ∧
      ∃ result, told = some result ∧ Reflects (line.connected peerID) now later result.toOption)
      now (isConnected peerID) := by
  refine timely_ask fun answer later ⟨after, before, reflects⟩ => ?_
  rcases answer with err | _ | ⟨peer, peers⟩
  · exact timely_pure ⟨after, before, _, rfl, reflects⟩
  · exact timely_pure ⟨after, before, _, rfl, reflects⟩
  · exact timely_pure ⟨after, before, _, rfl, reflects⟩

theorem online_polls : Polls (timing line times) times (line.connected peerID)
    (online peerID) := by
  intro now
  refine timely_bind _ (isConnected_timely now) ?_ ?_
  · rintro later result ⟨after, before, _, told, reflects⟩
    obtain rfl := Option.some.inj told
    cases result with
    | error err => exact timely_pure ⟨after, before, none, reflects, rfl⟩
    | ok connected => exact timely_pure ⟨after, before, some connected, reflects, rfl⟩
  · rintro later ⟨_, _, result, ⟨⟩, _⟩

theorem active_polls : Polls (timing line times) times (line.hasOpen peerID)
    (active peerID) := by
  intro now
  refine timely_ask fun answer later ⟨after, before, reflects⟩ => ?_
  rcases answer with err | channels
  · exact timely_pure ⟨after, before, none, reflects, rfl⟩
  · exact timely_pure ⟨after, before, some (channels.any isOpen), reflects, rfl⟩

variable {truth : Int → Option Bool} {ready : Code Bool} {start deadline : Int}

/-- What holds whenever a round of a wait begins. -/
structure Round (times : Times) (truth : Int → Option Bool) (start deadline began : Int) :
    Prop where
  after : start ≤ began
  before : began ≤ max start (deadline + times.delay)
  unnoticed : ∀ since, start ≤ since →
    (∀ moment, since ≤ moment → moment ≤ since + times.notice → truth moment = some true) →
    began ≤ since + times.notice - times.latency

/-- A poll that did not see it began before it was so. -/
theorem Round.earlier {began later since : Int} {seen : Option Bool}
    (round : Round times truth start deadline began) (short : later ≤ began + times.latency)
    (reflects : Reflects truth began later seen) (unseen : seen.getD false = false)
    (begun : start ≤ since)
    (steady : ∀ moment, since ≤ moment → moment ≤ since + times.notice →
      truth moment = some true) : began < since := by
  by_contra late
  obtain ⟨moment, after, before, rfl⟩ := reflects
  have soon := round.unnoticed since begun steady
  rw [steady moment (by omega) (by omega)] at unseen
  cases unseen

theorem Round.first : Round times truth start deadline start where
  after := Int.le_refl _
  before := by omega
  unnoticed since begun steady := by
    have := pollingInterval_pos
    have := times.latency_nonneg
    have := times.delay_nonneg
    rw [Times.notice]
    omega

/-- The poll sees it. -/
theorem Round.seen {began later : Int} (round : Round times truth start deadline began)
    (after : began ≤ later) (short : later ≤ began + times.latency)
    (reflects : Reflects truth began later (some true)) :
    Waited times truth start deadline later (.ok ()) where
  inTime := by
    have := round.after
    have := round.before
    have := times.delay_nonneg
    omega
  seen _ := by
    obtain ⟨moment, first, last, same⟩ := reflects
    exact ⟨moment, Int.le_trans round.after first, last, same⟩
  timeout err failed := by cases failed
  found since begun steady _ := by
    have soon := round.unnoticed since begun steady
    exact ⟨rfl, by omega⟩

/-- The deadline fires first. -/
theorem Round.timeout {began polled later : Int} {seen : Option Bool}
    (round : Round times truth start deadline began) (after : began ≤ polled)
    (short : polled ≤ began + times.latency) (reflects : Reflects truth began polled seen)
    (unseen : seen.getD false = false) (fired : max polled deadline ≤ later)
    (woken : later ≤ min (max polled deadline) (polled + pollingInterval) + times.delay) :
    Waited times truth start deadline later (.error "timeout") where
  inTime := by
    have := round.after
    have := round.before
    omega
  seen passed := by cases passed
  timeout err failed := ⟨(Except.error.inj failed).symm, by omega⟩
  found since begun steady early := by
    have soon := round.earlier short reflects unseen begun steady
    rw [Times.notice] at early
    omega

/-- The pause is over before the deadline. -/
theorem Round.next {began polled later : Int} {seen : Option Bool}
    (round : Round times truth start deadline began) (after : began ≤ polled)
    (short : polled ≤ began + times.latency) (reflects : Reflects truth began polled seen)
    (unseen : seen.getD false = false) (fired : polled + pollingInterval ≤ later)
    (woken : later ≤ min (max polled deadline) (polled + pollingInterval) + times.delay) :
    Round times truth start deadline later where
  after := by
    have := round.after
    have := pollingInterval_pos
    omega
  before := by
    have := times.prompt
    omega
  unnoticed since begun steady := by
    have soon := round.earlier short reflects unseen begun steady
    rw [Times.notice]
    omega

theorem waitUntil_timely (polls : Polls (timing line times) times truth ready) :
    Timely (timing line times) (fun later result => ∃ told, result = some told ∧
      Waited times truth start deadline later told) start (waitUntil ready deadline) := by
  refine timely_forever (fun _ began => Round times truth start deadline began)
    (fun began => (max start (deadline + times.delay) - began).toNat) Round.first ?_
  intro _ began round
  refine timely_bind _ (polls began) ?_ ?_
  · rintro polled _ ⟨after, short, seen, reflects, told⟩
    obtain rfl := Option.some.inj told
    cases unseen : seen.getD false with
    | true =>
      obtain rfl : seen = some true := by
        cases seen with
        | none => cases unseen
        | some value => exact congrArg some unseen
      exact timely_pure ⟨_, rfl, round.seen after short reflects⟩
    | false =>
      refine timely_ask fun timer later timed => ?_
      cases timer with
      | deadline =>
        exact timely_pure ⟨_, rfl, round.timeout after short reflects unseen timed.1 timed.2⟩
      | pollingInterval =>
        have next := round.next after short reflects unseen timed.1 timed.2
        refine timely_pure ⟨next, ?_⟩
        have := next.before
        have : began < later := by
          have := pollingInterval_pos
          have := timed.1
          omega
        omega
  · rintro later ⟨_, _, _, _, told⟩
    cases told

/-- Both waits end, at latest one poll after the deadline. They succeed only if the node
had the peer connected, or an open channel with it, at some moment of the wait, and they
do if that lasts for a poll and a pause before the deadline. They fail only behind it. -/
theorem waits_end (line : Timeline) (times : Times) (peerID : Bytes) (start deadline : Int) :
    Concludes (timing line times) (fun later result => ∃ told, result = some told ∧
        Waited times (line.connected peerID) start deadline later told)
        start (waitOnline peerID deadline) ∧
      Concludes (timing line times) (fun later result => ∃ told, result = some told ∧
        Waited times (line.hasOpen peerID) start deadline later told)
        start (waitChannelActive peerID deadline) :=
  ⟨(waitUntil_timely online_polls).concludes, (waitUntil_timely active_polls).concludes⟩

def sampleTimes : Times := ⟨10000000, 1000000, by decide, by decide, by decide⟩

/-- A peer that connects after 300 milliseconds. -/
def sampleLine : Timeline where
  connected _ moment := some (decide (300000000 ≤ moment))
  hasOpen _ _ := none

/-- The second poll sees the peer. -/
theorem waits_end_sample :
    TimedRuns (timing sampleLine sampleTimes) (0, waitOnline [2] second)
        (pollingInterval, .done (.ok ())) ∧
      Reflects (sampleLine.connected [2]) 0 pollingInterval (some true) := by
  have runs : TimedRuns (timing sampleLine sampleTimes) (0, waitOnline [2] second)
      (pollingInterval, .done (.ok ())) := by
    have absent : timing sampleLine sampleTimes 0 (.listPeers [2]) (.ok []) 0 :=
      ⟨by decide, by decide, 0, by decide, by decide, rfl⟩
    have pause : timing sampleLine sampleTimes 0 (.select second) .pollingInterval
        pollingInterval := ⟨by decide, by decide⟩
    have present : timing sampleLine sampleTimes pollingInterval (.listPeers [2])
        (.ok [⟨true⟩]) pollingInterval :=
      ⟨by decide, by decide, pollingInterval, by decide, by decide, rfl⟩
    exact .step .unroll (.step (.call _ absent) (.step (.call _ pause) (.step .unroll
      (.step (.call _ present) .here))))
  obtain ⟨_, told, waited⟩ := (waits_end sampleLine sampleTimes [2] 0 second).1.returns _ _ runs
  obtain rfl := Option.some.inj told
  exact ⟨runs, waited.seen rfl⟩

end Timely

end Waiting

end Lspd.Cln
