import Lspd.Common.Strconv
import Lspd.Postgres.History
import Lspd.Process.Machine
import Lspd.Store.Page

/-! `ForwardSync` copies the forwarding log of an lnd node to the history store.
Its cursor counts nanoseconds, but lnd is asked for events from a full second on. -/

namespace Lspd.Lnd

open Lspd.Common Lspd.Lightning Lspd.Postgres Lspd.Process Lspd.Store

/-- `lnrpc.ForwardingEvent`. -/
structure ForwardingEvent where
  timestampNs : UInt64
  chanIdIn : UInt64
  chanIdOut : UInt64
  amtInMsat : UInt64
  amtOutMsat : UInt64
  deriving DecidableEq

namespace ForwardingEvent

def time (event : ForwardingEvent) : Nat := event.timestampNs.toNat

def second (event : ForwardingEvent) : Nat := event.time / 1000000000

/-- The body of the loop over the events of a page. -/
def forward (event : ForwardingEvent) : Forward :=
  { identifier := formatUint event.timestampNs ++ "|" ++ formatUint event.amtInMsat
    inChannel := event.chanIdIn
    outChannel := event.chanIdOut
    inMsat := event.amtInMsat
    outMsat := event.amtOutMsat
    resolvedTime := event.timestampNs.toInt64.toInt }

theorem time_of_identifier {one two : ForwardingEvent}
    (same : one.forward.identifier = two.forward.identifier) : one.time = two.time := by
  have chars := congrArg String.toList same
  simp only [forward, String.toList_append, List.append_assoc] at chars
  exact congrArg UInt64.toNat (@formatUint_append_inj _ _ '|' _ _ rfl chars)

theorem time_lt_of_second_lt {event later : ForwardingEvent} (less : event.second < later.second) :
    event.time < later.time := by
  by_contra after
  exact Nat.not_le.mpr less (Nat.div_le_div_right (Nat.le_of_not_lt after))

end ForwardingEvent

/-- The log of a node. No two events have the same timestamp. -/
structure ForwardingLog where
  events : List ForwardingEvent
  ascending : events.Pairwise fun one two => one.time < two.time

namespace ForwardingLog

variable {log : ForwardingLog} {one two : ForwardingEvent}

/-- The call `ForwardingHistory`. -/
def forwardingHistory (log : ForwardingLog) (startTime : UInt64) (numMaxEvents : UInt32) :
    List ForwardingEvent :=
  page ForwardingEvent.time log.events (startTime.toNat * 1000000000) numMaxEvents.toNat

theorem eq_of_time (first : one ∈ log.events) (second : two ∈ log.events)
    (same : one.time = two.time) : one = two :=
  List.inj_on_of_nodup_map (List.pairwise_map.mpr (log.ascending.imp Nat.ne_of_lt)) first second same

/-- How many events of the log fall into one second. -/
def inSecond (log : ForwardingLog) (second : Nat) : Nat :=
  log.events.countP (·.second = second)

end ForwardingLog

def maxEvents : UInt32 := 10000

/-- Where `forwardsSynchronizeOnce` is. `clean` is false when a call failed. -/
inductive Phase where
  | fetching
  | listing (startTime : UInt64)
  | storing (forwards : List Forward) (startTime : UInt64) (endReached : Bool)
  | returned (clean : Bool)

structure State where
  history : ForwardingHistory
  phase : Phase

/-- `uint64(last.UnixNano())`, or zero for a node without forwards. -/
def firstStartTime (last : Option Time) : UInt64 :=
  last.elim 0 fun time => (Int64.ofInt time).toUInt64

/-- The page that is asked for at a cursor. -/
def ForwardingLog.pageFrom (log : ForwardingLog) (startTime : UInt64) : List ForwardingEvent :=
  log.forwardingHistory (startTime / 1000000000) maxEvents

/-- What follows a page: the loop is left when it is empty, and after it is
stored when it is short. -/
def ForwardingLog.listed (log : ForwardingLog) (startTime : UInt64) : Phase :=
  match (log.pageFrom startTime).getLast? with
  | none => .returned true
  | some final => .storing ((log.pageFrom startTime).map ForwardingEvent.forward) final.timestampNs
      (decide ((log.pageFrom startTime).length < maxEvents.toNat))

/-- The steps of `forwardsSynchronizeOnce`. Each call may fail; a failed
`InsertForwards` may have been committed. -/
inductive Step (nodeid : Bytes) (log : ForwardingLog) (s : State) : State → Prop where
  | fetch (here : s.phase = .fetching) :
      Step nodeid log s
        { s with phase := .listing (firstStartTime (fetchLndForwardOffset s.history nodeid)) }
  | fetchError (here : s.phase = .fetching) : Step nodeid log s { s with phase := .returned false }
  | list (here : s.phase = .listing startTime) :
      Step nodeid log s { s with phase := log.listed startTime }
  | listError (here : s.phase = .listing startTime) :
      Step nodeid log s { s with phase := .returned false }
  | store (here : s.phase = .storing forwards startTime endReached) :
      Step nodeid log s
        { history := insertForwards s.history forwards nodeid
          phase := if endReached then .returned true else .listing startTime }
  | storeError (here : s.phase = .storing forwards startTime endReached)
      (maybe : history = s.history ∨ history = insertForwards s.history forwards nodeid) :
      Step nodeid log s { history, phase := .returned false }

/-- `forwardsSynchronizeOnce` over the history as it is before the call. -/
def forwardsSynchronizeOnce (nodeid : Bytes) (log : ForwardingLog) (history : ForwardingHistory) :
    Machine State Unit where
  Initial s := s = ⟨history, .fetching⟩
  Step s _ later := Step nodeid log s later

section Listing

variable {log : ForwardingLog} {start : UInt64} {event final : ForwardingEvent} {second : Nat}

/-- The second a cursor falls into. -/
def cursorSecond (start : UInt64) : Nat := (start / 1000000000).toNat

theorem cursorSecond_time (event : ForwardingEvent) :
    cursorSecond event.timestampNs = event.second := by
  simp [cursorSecond, ForwardingEvent.second, ForwardingEvent.time]

theorem second_le_iff : second ≤ event.second ↔ second * 1000000000 ≤ event.time :=
  Nat.le_div_iff_mul_le (by decide)

theorem second_lt_iff : event.second < second ↔ event.time < second * 1000000000 :=
  Nat.div_lt_iff_lt_mul (by decide)

theorem mem_of_mem_pageFrom (member : event ∈ log.pageFrom start) :
    event ∈ log.events ∧ cursorSecond start ≤ event.second := by
  obtain ⟨present, reached⟩ := mem_of_mem_page member
  exact ⟨present, second_le_iff.mpr reached⟩

/-- A short page is the rest of the log. -/
theorem mem_pageFrom_of_short (short : (log.pageFrom start).length < maxEvents.toNat)
    (member : event ∈ log.events) (reached : cursorSecond start ≤ event.second) :
    event ∈ log.pageFrom start :=
  mem_page_of_short short member (second_le_iff.mp reached)

/-- A page leaves out no event before its last one. -/
theorem mem_pageFrom_of_le (last : (log.pageFrom start).getLast? = some final)
    (member : event ∈ log.events) (reached : cursorSecond start ≤ event.second)
    (bound : event.time ≤ final.time) : event ∈ log.pageFrom start :=
  mem_page_of_le_last (fun _ first _ second => ForwardingLog.eq_of_time first second) last member
    (second_le_iff.mp reached) bound

/-- The events of a second are those between its ends. -/
theorem inSecond_le_between (within : cursorSecond start ≤ second) :
    log.inSecond second ≤ between ForwardingEvent.time log.events
      (cursorSecond start * 1000000000) ((second + 1) * 1000000000) := by
  rw [between, List.countP_filter]
  refine List.countP_mono_left fun event _ falls => ?_
  have here : event.second = second := by simpa using falls
  have after := second_le_iff.mp (Nat.le_trans within (Nat.le_of_eq here.symm))
  have before := second_lt_iff.mp (Nat.lt_succ_of_le (Nat.le_of_eq here))
  simpa using ⟨before, after⟩

theorem between_le_inSecond : between ForwardingEvent.time log.events
    (second * 1000000000) ((second + 1) * 1000000000) ≤ log.inSecond second := by
  rw [between, List.countP_filter]
  refine List.countP_mono_left fun event _ falls => ?_
  have ends : event.time < (second + 1) * 1000000000 ∧ second * 1000000000 ≤ event.time := by
    simpa using falls
  have above := second_le_iff.mpr ends.2
  have below := second_lt_iff.mpr ends.1
  simpa using Nat.le_antisymm (Nat.le_of_lt_succ below) above

/-- While a crowded second lies ahead, pages are full and do not get past it. -/
theorem full_of_crowded (within : cursorSecond start ≤ second)
    (crowded : maxEvents.toNat ≤ log.inSecond second) :
    ∃ final, (log.pageFrom start).getLast? = some final ∧ final.second ≤ second ∧
      (log.pageFrom start).length = maxEvents.toNat := by
  have enough := Nat.le_trans crowded (inSecond_le_between within)
  have full : (log.pageFrom start).length = maxEvents.toNat := length_page_of_between enough
  have some_ : log.pageFrom start ≠ [] := List.ne_nil_of_length_pos (by rw [full]; decide)
  have last := List.getLast?_eq_some_getLast some_
  have below := (last_lt_iff last full).mpr enough
  exact ⟨_, last, Nat.le_of_lt_succ (second_lt_iff.mpr below), full⟩

/-- A full page gets past a second with fewer events than a page holds. -/
theorem second_lt_of_full (last : (log.pageFrom start).getLast? = some final)
    (full : (log.pageFrom start).length = maxEvents.toNat)
    (sparse : log.inSecond (cursorSecond start) < maxEvents.toNat) :
    cursorSecond start < final.second := by
  by_contra stuck
  have below := second_lt_iff.mp (Nat.lt_succ_of_le (Nat.le_of_not_lt stuck))
  have enough := (last_lt_iff last full).mp below
  exact Nat.not_lt.mpr (Nat.le_trans enough between_le_inSecond) sparse

end Listing

end Lspd.Lnd
