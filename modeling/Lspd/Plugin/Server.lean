import Lspd.Plugin.Messages
import Lspd.Process.Machine
import Mathlib.Logic.Function.Basic

/-! The grpc server inside the cln plugin as a state machine. Its goroutines are
`SendHtlcAccepted` callers, `listenHtlcRequests`, `listenHtlcResponses`, one
`HtlcStream` per subscriber and `ReceiveHtlcResolution` callers; a transition is
what one of them does between two points where others can run. -/

namespace Lspd.Plugin

open Lspd.Common Lspd.Process Lspd.Store

abbrev StreamId := Nat

/-- Where the `HtlcStream` call of a subscriber is. -/
inductive Subscription where
  | fresh
  | active
  | closed
  deriving DecidableEq

/-- Where `listenHtlcRequests` is: at its select, or with one message at the top
of the loop of `handleHtlcAccepted`, waiting for a subscriber (with the channel
`ns` it sampled), about to send, or putting the default result on the queue. -/
inductive Requests where
  | idle
  | handling (msg : HtlcAcceptedMsg)
  | waiting (msg : HtlcAcceptedMsg) (ns : Nat)
  | sending (msg : HtlcAcceptedMsg) (stream : StreamId)
  | releasing (msg : HtlcAcceptedMsg)
  deriving DecidableEq

/-- Where `listenHtlcResponses` is: at the top of the loop of
`recvHtlcResolution`, waiting for a subscriber or for the timeout of the oldest
htlc as it was sampled, in `stream.Recv`, or putting a result on the queue. -/
inductive Responses where
  | polling
  | waiting (ns : Nat) (oldest : Option HtlcAcceptedMsg)
  | receiving (stream : StreamId)
  | resolved (id : String) (outcome : HtlcOutcome)
  deriving DecidableEq

def queueCapacity : Nat := 10000

/-- The server and its goroutines. `htlcnewSubscriber` numbers the channels made
so far, so a sampled channel is closed when its number is smaller. -/
structure State where
  subscriberTimeout : Time
  htlcnewSubscriber : Nat
  htlcStream : Option StreamId
  htlcSendQueue : List HtlcAcceptedMsg
  htlcRecvQueue : List HtlcResultMsg
  inflightHtlcs : Table HtlcAcceptedMsg HtlcAcceptedMsg.id
  /-- `SendHtlcAccepted` calls that have stamped their message. -/
  enqueuing : List HtlcAcceptedMsg
  requests : Requests
  responses : Responses
  /-- `ReceiveHtlcResolution` calls between the queue and the `Delete`. -/
  deleting : List String
  subscription : StreamId → Subscription
  /-- The context of a stream is done. -/
  done : StreamId → Bool
  now : Time
  /-- The ids of all calls of `SendHtlcAccepted`. -/
  called : List String
  /-- The ids put on `htlcSendQueue`, in order. -/
  accepted : List String
  /-- The ids `handleHtlcAccepted` is done with, in order. -/
  handled : List String
  /-- The ids subscribers have answered. -/
  answered : List String
  /-- The ids sent on each stream without an error, in order. -/
  sent : StreamId → List String
  /-- The ids `ReceiveHtlcResolution` took off `htlcRecvQueue` to return them. -/
  returned : List String
  /-- When a subscriber was last removed. -/
  removedAt : Option Time

/-- A server that was just started. -/
def State.start (subscriberTimeout now : Time) : State :=
  { subscriberTimeout
    htlcnewSubscriber := 0
    htlcStream := none
    htlcSendQueue := []
    htlcRecvQueue := []
    inflightHtlcs := .empty
    enqueuing := []
    requests := .idle
    responses := .polling
    deleting := []
    subscription := fun _ => .fresh
    done := fun _ => false
    now
    called := []
    accepted := []
    handled := []
    answered := []
    sent := fun _ => []
    returned := []
    removedAt := none }

/-- The messages after the first `count` of them got a new timeout. -/
def resetTimeouts (msgs : List HtlcAcceptedMsg) (count : Nat) (timeout : Time) :
    List HtlcAcceptedMsg :=
  (msgs.take count).map (fun msg => { msg with timeout }) ++ msgs.drop count

theorem resetTimeouts_ids (msgs : List HtlcAcceptedMsg) (count : Nat) (timeout : Time) :
    (resetTimeouts msgs count timeout).map HtlcAcceptedMsg.id = msgs.map HtlcAcceptedMsg.id := by
  conv_rhs => rw [← List.take_append_drop count msgs]
  simp [resetTimeouts, Function.comp_def]

/-- The in-flight htlcs after `count` of them were replayed to a new subscriber. -/
def State.replayed (s : State) (count : Nat) : Table HtlcAcceptedMsg HtlcAcceptedMsg.id :=
  s.inflightHtlcs.rewrite
    (resetTimeouts s.inflightHtlcs.rows count (s.now + s.subscriberTimeout))
    (resetTimeouts_ids ..)

def State.inflightIds (s : State) : List String := s.inflightHtlcs.rows.map HtlcAcceptedMsg.id

@[simp] theorem State.replayed_ids (s : State) (count : Nat) :
    (s.replayed count).rows.map HtlcAcceptedMsg.id = s.inflightIds :=
  resetTimeouts_ids ..

inductive Action where
  | tick (elapsed : Nat)
  | call (id : String) (htlc : HtlcAccepted)
  | enqueue (msg : HtlcAcceptedMsg)
  | take
  | sample
  | wake
  | expire
  | release
  | deliver
  | sendError
  | subscribe (stream : StreamId) (count : Nat)
  | refuse (stream : StreamId)
  | disconnect (stream : StreamId)
  | remove (stream : StreamId)
  | poll
  | wakeReceive
  | expireOldest
  | answer (id : String) (outcome : HtlcOutcome)
  | receiveError
  | push
  | dequeue
  | delete (id : String)
  deriving DecidableEq

/-- The transitions. Nothing here is atomic that the code does not do under the
mutex or in one channel operation. -/
inductive Step (s : State) : Action → State → Prop where
  | tick (elapsed : Nat) : Step s (.tick elapsed) { s with now := s.now + elapsed }
  /-- `SendHtlcAccepted` evaluates the message; cln uses an id once. -/
  | call (id : String) (htlc : HtlcAccepted) (new : id ∉ s.called) :
      Step s (.call id htlc)
        { s with
          enqueuing := s.enqueuing ++ [⟨id, htlc, s.now + s.subscriberTimeout⟩]
          called := s.called ++ [id] }
  | enqueue (waiting : msg ∈ s.enqueuing) (room : s.htlcSendQueue.length < queueCapacity) :
      Step s (.enqueue msg)
        { s with
          enqueuing := s.enqueuing.erase msg
          htlcSendQueue := s.htlcSendQueue ++ [msg]
          accepted := s.accepted ++ [msg.id] }
  | take (here : s.requests = .idle) (queue : s.htlcSendQueue = msg :: rest) :
      Step s .take { s with htlcSendQueue := rest, requests := .handling msg }
  | sampleNone (here : s.requests = .handling msg) (free : s.htlcStream = none) :
      Step s .sample { s with requests := .waiting msg s.htlcnewSubscriber }
  | sampleStream (here : s.requests = .handling msg) (active : s.htlcStream = some stream) :
      Step s .sample { s with requests := .sending msg stream }
  | wake (here : s.requests = .waiting msg ns) (closed : ns < s.htlcnewSubscriber) :
      Step s .wake { s with requests := .handling msg }
  | expire (here : s.requests = .waiting msg ns) (late : msg.timeout ≤ s.now) :
      Step s .expire { s with requests := .releasing msg }
  | release (here : s.requests = .releasing msg) (room : s.htlcRecvQueue.length < queueCapacity) :
      Step s .release
        { s with
          htlcRecvQueue := s.htlcRecvQueue ++ [⟨msg.id, defaultResult⟩]
          handled := s.handled ++ [msg.id]
          requests := .idle }
  /-- Set and a successful Send; Send fails once the context is done. -/
  | deliver (here : s.requests = .sending msg stream) (alive : s.done stream = false) :
      Step s .deliver
        { s with
          inflightHtlcs := s.inflightHtlcs.set msg
          sent := Function.update s.sent stream (s.sent stream ++ [msg.id])
          handled := s.handled ++ [msg.id]
          requests := .idle }
  /-- Set, a failing Send and Delete. -/
  | sendError (here : s.requests = .sending msg stream) :
      Step s .sendError
        { s with
          inflightHtlcs := (s.inflightHtlcs.set msg).delete msg.id
          requests := .handling msg }
  /-- `newHtlcStream` replays everything and registers the stream. -/
  | subscribe (stream : StreamId) (new : s.subscription stream = .fresh)
      (free : s.htlcStream = none) (alive : s.done stream = false ∨ s.inflightHtlcs.rows = []) :
      Step s (.subscribe stream s.inflightHtlcs.rows.length)
        { s with
          inflightHtlcs := s.replayed s.inflightHtlcs.rows.length
          sent := Function.update s.sent stream s.inflightIds
          htlcStream := some stream
          htlcnewSubscriber := s.htlcnewSubscriber + 1
          subscription := Function.update s.subscription stream .active }
  /-- `newHtlcStream` gives up after an error in the middle of the replay. -/
  | subscribeError (new : s.subscription stream = .fresh) (free : s.htlcStream = none)
      (partway : count < s.inflightHtlcs.rows.length) (alive : s.done stream = false ∨ count = 0) :
      Step s (.subscribe stream count)
        { s with
          inflightHtlcs := s.replayed count
          sent := Function.update s.sent stream (s.inflightIds.take count)
          subscription := Function.update s.subscription stream .closed }
  | refuse (new : s.subscription stream = .fresh) (active : s.htlcStream = some other) :
      Step s (.refuse stream)
        { s with subscription := Function.update s.subscription stream .closed }
  | disconnect (stream : StreamId) :
      Step s (.disconnect stream) { s with done := Function.update s.done stream true }
  /-- The end of `HtlcStream`. -/
  | remove (stream : StreamId) (active : s.subscription stream = .active)
      (finished : s.done stream = true) :
      Step s (.remove stream)
        { s with
          htlcStream := none
          subscription := Function.update s.subscription stream .closed
          removedAt := some s.now }
  | pollNone (here : s.responses = .polling) (free : s.htlcStream = none) :
      Step s .poll
        { s with responses := .waiting s.htlcnewSubscriber s.inflightHtlcs.rows.head? }
  | pollStream (here : s.responses = .polling) (active : s.htlcStream = some stream) :
      Step s .poll { s with responses := .receiving stream }
  | wakeReceive (here : s.responses = .waiting ns oldest) (closed : ns < s.htlcnewSubscriber) :
      Step s .wakeReceive { s with responses := .polling }
  /-- Without an oldest htlc the timer is set to 146 years and never fires. -/
  | expireOldest (here : s.responses = .waiting ns (some oldest)) (late : oldest.timeout ≤ s.now) :
      Step s .expireOldest { s with responses := .resolved oldest.id (.continue none none) }
  | answer (id : String) (outcome : HtlcOutcome) (here : s.responses = .receiving stream) :
      Step s (.answer id outcome)
        { s with responses := .resolved id outcome, answered := s.answered ++ [id] }
  | receiveError (here : s.responses = .receiving stream) :
      Step s .receiveError { s with responses := .polling }
  | push {id : String} (here : s.responses = .resolved id outcome)
      (room : s.htlcRecvQueue.length < queueCapacity) :
      Step s .push
        { s with
          htlcRecvQueue := s.htlcRecvQueue ++ [⟨id, mapHtlcResult outcome⟩]
          responses := .polling }
  | dequeue (queue : s.htlcRecvQueue = msg :: rest) :
      Step s .dequeue
        { s with
          htlcRecvQueue := rest
          deleting := s.deleting ++ [msg.id]
          returned := s.returned ++ [msg.id] }
  | delete (id : String) (pending : id ∈ s.deleting) :
      Step s (.delete id)
        { s with
          inflightHtlcs := s.inflightHtlcs.delete id
          deleting := s.deleting.erase id }

/-- The server, from any start of the process. -/
def server : Machine State Action where
  Initial s := ∃ subscriberTimeout now, s = .start subscriberTimeout now
  Step := Step

abbrev Reaches (s later : State) : Prop := server.Reaches s later

abbrev Reachable (s : State) : Prop := server.Reachable s

theorem reachable_start (subscriberTimeout now : Time) :
    Reachable (.start subscriberTimeout now) :=
  .start ⟨subscriberTimeout, now, rfl⟩

/-- What holds after every start and across every transition from a reachable
state holds in every reachable state. -/
theorem holds_of_reachable {holds : State → Prop}
    (start : ∀ subscriberTimeout now, holds (.start subscriberTimeout now))
    (step : ∀ {s action later}, Reachable s → holds s → Step s action later → holds later)
    {s : State} (reachable : Reachable s) : holds s := by
  refine reachable.induct holds ?_ fun _ _ _ before held taken => step before held taken
  rintro _ ⟨subscriberTimeout, now, rfl⟩
  exact start subscriberTimeout now

end Lspd.Plugin
