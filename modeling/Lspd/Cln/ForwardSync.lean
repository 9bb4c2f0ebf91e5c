import Lspd.Cln.Node
import Lspd.Common.Strconv
import Lspd.Lightning.ShortChannelID
import Lspd.Postgres.History
import Lspd.Process.Machine

/-! `ForwardSync` copies the settled forwards of a cln node to the history store,
once along `created_index` and once along `updated_index`. The node, the store
and the connection to both go their own ways between any two of its steps. -/

namespace Lspd.Cln

open Lspd.Common Lspd.Lightning Lspd.Postgres Lspd.Process Lspd.Store

/-- `math.Modf` of the received time, then `time.Unix(int64(sec), int64(dec*(1e9)))`. -/
def unixTime (receivedTime : Float) : Time :=
  let sec := if receivedTime < 0 then receivedTime.ceil else receivedTime.floor
  let dec := receivedTime - sec
  sec.toInt64.toInt * second + (dec * 1e9).toInt64.toInt

/-- The body of the loop in `listForwards`; `none` is its `continue`. -/
def historyForward (forward : ListforwardsForwards) : Except String (Option Forward) :=
  match forward.outChannel, forward.createdIndex, forward.inMsat, forward.outMsat with
  | some outChannel, some createdIndex, some inMsat, some outMsat =>
    match newShortChannelIDFromString forward.inChannel with
    | .error err => .error s!"NewShortChannelIDFromString({forward.inChannel}) error: {err}"
    | .ok inScid =>
      match newShortChannelIDFromString outChannel with
      | .error err => .error s!"NewShortChannelIDFromString({outChannel}) error: {err}"
      | .ok outScid => .ok (some
          { identifier := formatUint createdIndex
            inChannel := inScid
            outChannel := outScid
            inMsat
            outMsat
            resolvedTime := unixTime forward.receivedTime })
  | _, _, _, _ => .ok none

/-- The loop in `listForwards`, with its variables `result` and `lastIndex`. -/
def collect (index : ForwardIndex) :
    List ListforwardsForwards → List Forward → Option UInt64 →
      Except String (List Forward × Option UInt64)
  | [], result, lastIndex => .ok (result, lastIndex)
  | forward :: rest, result, lastIndex =>
    match historyForward forward with
    | .error err => .error err
    | .ok none => collect index rest result lastIndex
    | .ok (some new) => collect index rest (result ++ [new]) (forward.index index)

def limit : UInt32 := 10000

/-- `listForwards` after the call: the forwards, the new offset and `endReached`. -/
def listForwards (index : ForwardIndex) (response : List ListforwardsForwards) :
    Except String (List Forward × UInt64 × Bool) :=
  match collect index response [] none with
  | .error err => .error err
  | .ok (result, lastIndex) =>
    .ok (result, lastIndex.elim 0 (· + 1), decide (response.length < limit.toNat))

/-- Where the synchronisation is: the process does not run, or it is about to
list, to store a page, to save the offsets, or waits for the next round. `clean`
is false once the round met an error. -/
inductive Phase where
  | down
  | listing (index : ForwardIndex) (clean : Bool)
  | storing (index : ForwardIndex) (clean : Bool) (forwards : List Forward) (newOffset : UInt64)
      (endReached : Bool)
  | saving (index : ForwardIndex) (clean : Bool) (newOffset : UInt64) (endReached : Bool)
  | waiting (clean : Bool)

/-- After the loop over one index: the other loop, or the end of the round. -/
def Phase.after : ForwardIndex → Bool → Phase
  | .created, clean => .listing .updated clean
  | .updated, clean => .waiting clean

structure State where
  node : Node
  history : ForwardingHistory
  offsets : ClnForwardOffsets
  createdOffset : UInt64
  updatedOffset : UInt64
  phase : Phase
  /-- The forwards of the node when they were last listed. -/
  listed : List ListforwardsForwards
  /-- The pages saved in this round, but for the last ones. -/
  pages : ForwardIndex → Nat
  /-- The steps taken in this round. -/
  steps : Nat

namespace State

def offset (s : State) : ForwardIndex → UInt64
  | .created => s.createdOffset
  | .updated => s.updatedOffset

/-- The answer of the node to the call `listForwards` makes. -/
def response (s : State) (index : ForwardIndex) : List ListforwardsForwards :=
  s.node.listForwards index (s.offset index) (limit * 2)

/-- `InsertForwards` or `UpdateForwards`. -/
def store (s : State) (nodeid : Bytes) (forwards : List Forward) :
    ForwardIndex → Option ForwardingHistory
  | .created => some (insertForwards s.history forwards nodeid)
  | .updated => updateForwards s.history forwards nodeid

/-- `SetClnForwardOffsets` with the new offset of one index. -/
def setOffset (s : State) (nodeid : Bytes) (newOffset : UInt64) : ForwardIndex → ClnForwardOffsets
  | .created => setClnForwardOffsets s.offsets nodeid newOffset s.updatedOffset
  | .updated => setClnForwardOffsets s.offsets nodeid s.createdOffset newOffset

/-- The offsets in memory after a page. -/
def advance (s : State) (newOffset : UInt64) : ForwardIndex → State
  | .created => { s with createdOffset := newOffset }
  | .updated => { s with updatedOffset := newOffset }

@[simp] theorem advance_node (s : State) {newOffset : UInt64} {index : ForwardIndex} :
    (s.advance newOffset index).node = s.node := by
  cases index <;> rfl

@[simp] theorem advance_history (s : State) {newOffset : UInt64} {index : ForwardIndex} :
    (s.advance newOffset index).history = s.history := by
  cases index <;> rfl

/-- The offset along `updated_index` that is saved is the one memory gets. -/
theorem fetch_setOffset (s : State) {nodeid : Bytes} {newOffset : UInt64}
    {index : ForwardIndex} :
    (fetchClnForwardOffsets (s.setOffset nodeid newOffset index) nodeid).2 =
      (s.advance newOffset index).updatedOffset := by
  cases index with
  | created => rw [setOffset, fetch_setClnForwardOffsets, if_pos rfl, advance]
  | updated => rw [setOffset, fetch_setClnForwardOffsets, if_pos rfl, advance]

/-- `forwardsSynchronizeOnce` begins. -/
def beginRound (s : State) : State :=
  { s with phase := .listing .created true, pages := fun _ => 0, steps := 0 }

end State

/-- The steps of `forwardsSynchronizeOnce`. A store call that returns an error may
have been carried out all the same. -/
inductive SyncStep (nodeid : Bytes) (s : State) : State → Prop where
  | callError (here : s.phase = .listing index clean) :
      SyncStep nodeid s { s with phase := .after index false, steps := s.steps + 1 }
  | badForward (here : s.phase = .listing index clean)
      (bad : listForwards index (s.response index) = .error err) :
      SyncStep nodeid s
        { s with
          phase := .after index false, steps := s.steps + 1, listed := s.node.forwards }
  | listNothing (here : s.phase = .listing index clean)
      (nothing : listForwards index (s.response index) = .ok ([], newOffset, endReached)) :
      SyncStep nodeid s
        { s with
          phase := .after index clean, steps := s.steps + 1, listed := s.node.forwards }
  | list (here : s.phase = .listing index clean)
      (page : listForwards index (s.response index) = .ok (forwards, newOffset, endReached))
      (some : forwards ≠ []) :
      SyncStep nodeid s
        { s with
          phase := .storing index clean forwards newOffset endReached
          steps := s.steps + 1
          listed := s.node.forwards }
  | store (here : s.phase = .storing index clean forwards newOffset endReached)
      (stored : s.store nodeid forwards index = some history) :
      SyncStep nodeid s
        { s with
          history, phase := .saving index clean newOffset endReached, steps := s.steps + 1 }
  | storeError (here : s.phase = .storing index clean forwards newOffset endReached)
      (maybe : history = s.history ∨ s.store nodeid forwards index = some history) :
      SyncStep nodeid s { s with history, phase := .after index false, steps := s.steps + 1 }
  | save (here : s.phase = .saving index clean newOffset endReached) :
      SyncStep nodeid s
        { s.advance newOffset index with
          offsets := s.setOffset nodeid newOffset index
          phase := if endReached then .after index clean else .listing index clean
          steps := s.steps + 1
          pages :=
            if endReached then s.pages else Function.update s.pages index (s.pages index + 1) }
  | saveError (here : s.phase = .saving index clean newOffset endReached)
      (maybe : offsets = s.offsets ∨ offsets = s.setOffset nodeid newOffset index) :
      SyncStep nodeid s { s with offsets, phase := .after index false, steps := s.steps + 1 }

inductive Action where
  | sync
  | evolve
  | others
  | crash
  | start
  | round

/-- The system: the synchronisation, the node, the rows of other nodes, a crash,
a start (with or without an error in `FetchClnForwardOffsets`) and the timer. -/
inductive Step (nodeid : Bytes) (s : State) : Action → State → Prop where
  | sync (taken : SyncStep nodeid s later) : Step nodeid s .sync later
  | evolve (taken : s.node.Step node) : Step nodeid s .evolve { s with node }
  | others (rows : ∀ identifier,
        Table.find? history (nodeid, identifier) = s.history.find? (nodeid, identifier))
      (saved : Table.find? offsets nodeid = s.offsets.find? nodeid) :
      Step nodeid s .others { s with history, offsets }
  | crash : Step nodeid s .crash { s with phase := .down }
  | start (here : s.phase = .down) :
      Step nodeid s .start (State.beginRound
        { s with
          createdOffset := (fetchClnForwardOffsets s.offsets nodeid).1
          updatedOffset := (fetchClnForwardOffsets s.offsets nodeid).2 })
  | startError (here : s.phase = .down) :
      Step nodeid s .start (State.beginRound { s with createdOffset := 0, updatedOffset := 0 })
  | round (here : s.phase = .waiting clean) : Step nodeid s .round s.beginRound

/-- A node without forwards, and a store without offsets for it. -/
structure State.Initial (nodeid : Bytes) (s : State) : Prop where
  node : s.node = .empty
  offsets : s.offsets.find? nodeid = none
  phase : s.phase = .down
  listed : s.listed = []
  pages : s.pages = fun _ => 0
  steps : s.steps = 0

def machine (nodeid : Bytes) : Machine State Action where
  Initial := State.Initial nodeid
  Step := Step nodeid

abbrev Reachable (nodeid : Bytes) (s : State) : Prop := (machine nodeid).Reachable s

end Lspd.Cln
