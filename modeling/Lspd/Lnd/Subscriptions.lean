import Lspd.Common.Strconv
import Lspd.Lightning.OutPoint
import Lspd.Process.Broadcast
import Lspd.Process.Machine

/-! How `LndClient` lets callers wait for a peer to come online or for one of its
channels to become active: two listeners for events of the node, and the calls that
subscribe to them. -/

namespace Lspd.Lnd

open Lspd.Common Lspd.Lightning Lspd.Process

/-- `lnrpc.ChannelPoint`; an id that is not set reads as the empty text. -/
structure ChannelPoint where
  fundingTxidStr : String
  fundingTxidBytes : Bytes
  outputIndex : UInt32

/-- A hash is printed with its bytes in reverse. -/
def extractChannelPoint (cp : ChannelPoint) : Except String String :=
  let index := formatUint cp.outputIndex.toUInt64
  if cp.fundingTxidStr = "" then
    if cp.fundingTxidBytes.length = 32 then
      .ok (encodeToString cp.fundingTxidBytes.reverse ++ ":" ++ index)
    else .error s!"invalid hash length of {cp.fundingTxidBytes.length}, want 32"
  else .ok (cp.fundingTxidStr ++ ":" ++ index)

/-- What a subscription is about: `peersubs` and `WaitOnline`, or `chansubs` and
`WaitChannelActive`. -/
inductive Kind where
  | peer
  | chan
  deriving DecidableEq

inductive NodeEvent where
  | peerOnline (pubKey : String)
  | activeChannel (channel : ChannelPoint)
  | other

/-- The key under which a listener looks up the subscribers of an event. Other events
are skipped. -/
def Kind.topic : Kind → NodeEvent → Option String
  | .peer, .peerOnline pubKey => some pubKey
  | .chan, .activeChannel channel => (extractChannelPoint channel).toOption
  | _, _ => none

/-- The deferred functions of a call. Its subscriptions are numbered. -/
inductive Deferred where
  | unsubscribe (k : Nat)
  | closeFeed (k : Nat)
  | closeSignal
  deriving DecidableEq

/-- Where a call is: it has its subscriptions when it looks whether the peer or a
channel is up already, then waits in its `select`, and at last runs what it deferred. -/
inductive CallPhase where
  | idle
  | checking (topics : List String)
  | selecting (topics : List String)
  | returning (topics : List String) (deferred : List Deferred)

def feedStack : Nat → List Deferred
  | 0 => []
  | k + 1 => .unsubscribe k :: .closeFeed k :: feedStack k

/-- The deferred functions, last in first out. The signal of `WaitOnline` is the
channel of its only subscription. -/
def deferred (kind : Kind) (count : Nat) : List Deferred :=
  feedStack count ++ match kind with
    | .peer => []
    | .chan => [.closeSignal]

/-- A goroutine that forwards the messages of a channel to the signal of its call. -/
inductive Forwarder where
  | waiting
  | holding
  | ended
  deriving DecidableEq

structure Signal where
  queued : Nat
  closed : Bool

/-- The capacity of all channels. -/
def capacity : Nat := 10

/-- The client with its listeners, and all calls with their goroutines. The channels of
subscriptions belong to a call and a number. `index` is a uint64, which would come back to
ids in use after 2^64 subscriptions; it counts on here. -/
structure LndClient where
  index : Nat
  hubs : Kind → Hub String (Nat × Nat)
  calls : Kind × Nat → CallPhase
  forwarders : Nat × Nat → Forwarder
  signals : Nat → Signal

namespace LndClient

/-- No listener has `submtx` for reading. -/
def Free (s : LndClient) : Prop := ∀ kind, (s.hubs kind).Free

def setHub (s : LndClient) (kind : Kind) (hub : Hub String (Nat × Nat)) : LndClient :=
  { s with hubs := Function.update s.hubs kind hub }

def setCall (s : LndClient) (kind : Kind) (n : Nat) (phase : CallPhase) : LndClient :=
  { s with calls := Function.update s.calls (kind, n) phase }

/-- The subscriptions of a call from the given number on, with ids from `index` on. -/
def subscribeAll (hub : Hub String (Nat × Nat)) (n index : Nat) : Nat → List String →
    Hub String (Nat × Nat)
  | _, [] => hub
  | k, topic :: topics =>
    subscribeAll (hub.subscribe topic (index + k) (n, k)) n index (k + 1) topics

def subscribe (s : LndClient) (kind : Kind) (n : Nat) (topics : List String) : LndClient :=
  { (s.setHub kind (subscribeAll (s.hubs kind) n s.index 0 topics)).setCall kind n
      (.checking topics) with
    index := s.index + topics.length }

def leave (s : LndClient) (kind : Kind) (n : Nat) (topics : List String) : LndClient :=
  s.setCall kind n (.returning topics (deferred kind topics.length))

inductive Action where
  | internal
  | unsubscribe (kind : Kind) (n k : Nat)
  | closeSignal (n : Nat)
  | lock (kind : Kind) (topic : String)

/-- The steps of the calls, of the forwarders and of the listeners. What happens under
the write lock of `submtx` is one step, taken while no listener has it. A send to a
closed channel is no step: the program ends there. -/
inductive Step (s : LndClient) : Action → LndClient → Prop where
  | waitOnline (n : Nat) (peerID : Bytes) (here : s.calls (.peer, n) = .idle) (free : s.Free) :
      Step s .internal (s.subscribe .peer n [encodeToString peerID])
  | returnEarly (n : Nat) (here : s.calls (.chan, n) = .idle) :
      Step s .internal (s.setCall .chan n (.returning [] []))
  | waitChannelActive (n : Nat) (points : List String) (here : s.calls (.chan, n) = .idle)
      (nonempty : points ≠ []) (free : s.Free) : Step s .internal (s.subscribe .chan n points)
  | settle (kind : Kind) (n : Nat) (here : s.calls (kind, n) = .checking topics) :
      Step s .internal (s.leave kind n topics)
  | wait (kind : Kind) (n : Nat) (here : s.calls (kind, n) = .checking topics) :
      Step s .internal (s.setCall kind n (.selecting topics))
  | deadline (kind : Kind) (n : Nat) (here : s.calls (kind, n) = .selecting topics) :
      Step s .internal (s.leave kind n topics)
  | online (n : Nat) (here : s.calls (.peer, n) = .selecting topics)
      (found : (s.hubs .peer).feeds (n, 0) = some feed) (queued : 0 < feed.queued) :
      Step s .internal ((s.setHub .peer ((s.hubs .peer).take (n, 0) feed)).leave .peer n topics)
  | active (n : Nat) (here : s.calls (.chan, n) = .selecting topics)
      (queued : 0 < (s.signals n).queued) :
      Step s .internal
        { s.leave .chan n topics with
          signals := Function.update s.signals n
            { s.signals n with queued := (s.signals n).queued - 1 } }
  | unsubscribe (kind : Kind) (n k : Nat)
      (here : s.calls (kind, n) = .returning topics (.unsubscribe k :: rest))
      (found : (s.hubs kind).feeds (n, k) = some feed) (free : s.Free) :
      Step s (.unsubscribe kind n k)
        ((s.setHub kind ((s.hubs kind).unsubscribe (n, k) feed)).setCall kind n
          (.returning topics rest))
  | closeFeed (kind : Kind) (n k : Nat)
      (here : s.calls (kind, n) = .returning topics (.closeFeed k :: rest))
      (found : (s.hubs kind).feeds (n, k) = some feed) :
      Step s .internal
        ((s.setHub kind ((s.hubs kind).close (n, k) feed)).setCall kind n (.returning topics rest))
  | closeSignal (n : Nat) (here : s.calls (.chan, n) = .returning topics (.closeSignal :: rest)) :
      Step s (.closeSignal n)
        { s.setCall .chan n (.returning topics rest) with
          signals := Function.update s.signals n { s.signals n with closed := true } }
  | receive (n k : Nat) (here : s.forwarders (n, k) = .waiting)
      (found : (s.hubs .chan).feeds (n, k) = some feed) (queued : 0 < feed.queued) :
      Step s .internal
        { s.setHub .chan ((s.hubs .chan).take (n, k) feed) with
          forwarders := Function.update s.forwarders (n, k) .holding }
  | forward (n k : Nat) (here : s.forwarders (n, k) = .holding)
      (opened : (s.signals n).closed = false) (room : (s.signals n).queued < capacity) :
      Step s .internal
        { s with
          forwarders := Function.update s.forwarders (n, k) .waiting
          signals := Function.update s.signals n
            { s.signals n with queued := (s.signals n).queued + 1 } }
  | finish (n k : Nat) (here : s.forwarders (n, k) = .waiting)
      (found : (s.hubs .chan).feeds (n, k) = some feed) (closed : feed.closed = true)
      (drained : feed.queued = 0) :
      Step s .internal { s with forwarders := Function.update s.forwarders (n, k) .ended }
  | hear (kind : Kind) (event : NodeEvent) (here : (s.hubs kind).listener = .waiting)
      (known : kind.topic event = some topic) :
      Step s .internal (s.setHub kind ((s.hubs kind).hear topic))
  | lock (kind : Kind) (here : (s.hubs kind).listener = .wanting topic)
      (order : ordered.Perm ((s.hubs kind).subscribers topic)) :
      Step s (.lock kind topic) (s.setHub kind ((s.hubs kind).lock topic ordered))
  | deliver (kind : Kind) (here : (s.hubs kind).listener = .holding topic (ref :: left))
      (found : (s.hubs kind).feeds ref = some feed) (opened : feed.closed = false)
      (room : feed.queued < capacity) :
      Step s .internal (s.setHub kind ((s.hubs kind).deliver topic ref feed left))
  | unlock (kind : Kind) (here : (s.hubs kind).listener = .holding topic []) :
      Step s .internal (s.setHub kind ((s.hubs kind).unlock topic))

/-- The client once its listeners have been started. -/
def initial : LndClient where
  index := 0
  hubs _ := .empty
  calls _ := .idle
  forwarders _ := .waiting
  signals _ := ⟨0, false⟩

def machine : Machine LndClient Action where
  Initial s := s = initial
  Step := Step

end LndClient

end Lspd.Lnd
