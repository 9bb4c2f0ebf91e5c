import Lspd.Lnd.ForwardSync

/-! When `forwardsSynchronizeOnce` ends, and what the history holds then. -/

namespace Lspd.Lnd

open Lspd.Common Lspd.Lightning Lspd.Postgres Lspd.Process Lspd.Store

variable {nodeid : Bytes} {log : ForwardingLog} {history : ForwardingHistory} {s later : State}
  {event : ForwardingEvent} {start : UInt64} {first second : Nat}

/-- The rows of the node are those of the oldest events of the log. -/
def Prefixed (nodeid : Bytes) (log : ForwardingLog) (history : ForwardingHistory) : Prop :=
  ∃ known, ∀ row, row ∈ history.rows ∧ row.nodeid = nodeid ↔
    ∃ event ∈ log.events.take known, event.forward.row nodeid = row

/-- The history has exactly one row for the event. -/
def StoredOnce (nodeid : Bytes) (history : ForwardingHistory) (event : ForwardingEvent) : Prop :=
  history.rows.filter (fun row => row.key = (nodeid, event.forward.identifier)) =
    [event.forward.row nodeid]

/-- Every row of the node comes from the log. -/
def Owned (nodeid : Bytes) (log : ForwardingLog) (history : ForwardingHistory) : Prop :=
  ∀ row ∈ history.rows, row.nodeid = nodeid → ∃ event ∈ log.events, event.forward.row nodeid = row

def Holds (nodeid : Bytes) (history : ForwardingHistory) (event : ForwardingEvent) : Prop :=
  ∃ row, history.find? (nodeid, event.forward.identifier) = some row

theorem Owned.storedOnce (owned : Owned nodeid log history) (member : event ∈ log.events)
    (holds : Holds nodeid history event) : StoredOnce nodeid history event := by
  obtain ⟨row, found⟩ := holds
  obtain ⟨present, key⟩ := Table.find?_eq_some_iff.mp found
  obtain ⟨node, name⟩ := Prod.mk.inj key
  obtain ⟨source, known, rfl⟩ := owned row present node
  obtain rfl : source = event :=
    ForwardingLog.eq_of_time known member (ForwardingEvent.time_of_identifier name)
  exact Table.filter_key found

theorem Owned.insert (owned : Owned nodeid log history) :
    Owned nodeid log
      (insertForwards history ((log.pageFrom start).map ForwardingEvent.forward) nodeid) := by
  intro row member node
  rcases mem_of_mem_insertForwards member with old | ⟨forward, listed, rfl⟩
  · exact owned row old node
  · obtain ⟨source, present, rfl⟩ := List.mem_map.mp listed
    exact ⟨source, (mem_of_mem_pageFrom present).1, rfl⟩

theorem Holds.insert {forwards : List Forward} (holds : Holds nodeid history event) :
    Holds nodeid (insertForwards history forwards nodeid) event := by
  obtain ⟨row, found⟩ := holds
  exact ⟨row, find?_insertForwards found⟩

theorem holds_inserted (member : event ∈ log.pageFrom start) :
    Holds nodeid
      (insertForwards history ((log.pageFrom start).map ForwardingEvent.forward) nodeid) event :=
  exists_find?_insertForwards (List.mem_map_of_mem member)

/-- All events before a second are in the history. -/
def Covers (nodeid : Bytes) (log : ForwardingLog) (history : ForwardingHistory) (second : Nat) :
    Prop :=
  ∀ event ∈ log.events, event.second < second → Holds nodeid history event

theorem Prefixed.owned (prefixed : Prefixed nodeid log history) : Owned nodeid log history := by
  intro row member node
  obtain ⟨known, rows⟩ := prefixed
  obtain ⟨event, early, same⟩ := (rows row).mp ⟨member, node⟩
  exact ⟨event, List.mem_of_mem_take early, same⟩

/-- The latest row tells how far the log has been copied. -/
theorem Prefixed.covers (prefixed : Prefixed nodeid log history) :
    Covers nodeid log history
      (cursorSecond (firstStartTime (fetchLndForwardOffset history nodeid))) := by
  intro event member earlier
  obtain ⟨known, rows⟩ := prefixed
  cases fetched : fetchLndForwardOffset history nodeid with
  | none =>
    rw [fetched] at earlier
    exact absurd earlier (Nat.not_lt_zero _)
  | some last =>
    obtain ⟨row, present, node, rfl⟩ := mem_of_fetchLndForwardOffset fetched
    obtain ⟨newest, early, rfl⟩ := (rows row).mp ⟨present, node⟩
    have cursor : firstStartTime (fetchLndForwardOffset history nodeid) = newest.timestampNs := by
      simp [fetched, firstStartTime, Forward.row, ForwardingEvent.forward]
    rw [cursor, cursorSecond_time] at earlier
    have older : event.time < newest.time := ForwardingEvent.time_lt_of_second_lt earlier
    have before : event ∈ log.events.take known := by
      have ascending := log.ascending
      rw [← List.take_append_drop known log.events, List.pairwise_append] at ascending
      have split := member
      rw [← List.take_append_drop known log.events] at split
      rcases List.mem_append.mp split with here | late
      · exact here
      · exact absurd (ascending.2.2 newest early event late) (Nat.lt_asymm older)
    obtain ⟨stored, _⟩ := (rows _).mpr ⟨event, before, rfl⟩
    exact ⟨_, Table.find?_eq_some_iff.mpr ⟨stored, rfl⟩⟩

/-- What the phase promises about the history; no page starts before `first`. -/
def Phase.Promises (nodeid : Bytes) (log : ForwardingLog) (history : ForwardingHistory)
    (first : Nat) : Phase → Prop
  | .fetching => Prefixed nodeid log history ∧
      cursorSecond (firstStartTime (fetchLndForwardOffset history nodeid)) = first
  | .listing start => Covers nodeid log history (cursorSecond start) ∧ first ≤ cursorSecond start
  | .storing forwards start endReached => ∃ listed final,
      Covers nodeid log history (cursorSecond listed) ∧ first ≤ cursorSecond listed ∧
      forwards = (log.pageFrom listed).map ForwardingEvent.forward ∧
      (log.pageFrom listed).getLast? = some final ∧ start = final.timestampNs ∧
      endReached = decide ((log.pageFrom listed).length < maxEvents.toNat)
  | .returned clean => clean = true → ∀ event ∈ log.events, Holds nodeid history event

structure Progress (nodeid : Bytes) (log : ForwardingLog) (first : Nat) (s : State) : Prop where
  owned : Owned nodeid log s.history
  promises : s.phase.Promises nodeid log s.history first

theorem promises_listed (covers : Covers nodeid log history (cursorSecond start))
    (after : first ≤ cursorSecond start) :
    (log.listed start).Promises nodeid log history first := by
  unfold ForwardingLog.listed
  split
  · rename_i nothing
    intro _ event member
    have empty := List.getLast?_eq_none_iff.mp nothing
    by_cases earlier : event.second < cursorSecond start
    · exact covers event member earlier
    · have present := mem_pageFrom_of_short (by rw [empty]; decide) member (Nat.le_of_not_lt earlier)
      simp [empty] at present
  · rename_i final last
    exact ⟨start, final, covers, after, rfl, last, rfl, rfl⟩

/-- After a page is stored, the cursor stands where its last event does. -/
theorem promises_stored {final : ForwardingEvent} {endReached : Bool}
    (covers : Covers nodeid log history (cursorSecond start)) (after : first ≤ cursorSecond start)
    (last : (log.pageFrom start).getLast? = some final)
    (ends : endReached = decide ((log.pageFrom start).length < maxEvents.toNat)) :
    Phase.Promises nodeid log
      (insertForwards history ((log.pageFrom start).map ForwardingEvent.forward) nodeid) first
      (if endReached then .returned true else .listing final.timestampNs) := by
  have reached := (mem_of_mem_pageFrom (List.mem_of_getLast? last)).2
  cases endReached with
  | true =>
    intro _ event member
    by_cases earlier : event.second < cursorSecond start
    · exact (covers event member earlier).insert
    · have short : (log.pageFrom start).length < maxEvents.toNat := by simpa using ends.symm
      exact holds_inserted (mem_pageFrom_of_short short member (Nat.le_of_not_lt earlier))
  | false =>
    refine ⟨?_, ?_⟩
    · intro event member earlier
      rw [cursorSecond_time] at earlier
      by_cases before : event.second < cursorSecond start
      · exact (covers event member before).insert
      · have bound := Nat.le_of_lt (ForwardingEvent.time_lt_of_second_lt earlier)
        exact holds_inserted (mem_pageFrom_of_le last member (Nat.le_of_not_lt before) bound)
    · rw [cursorSecond_time]
      exact Nat.le_trans after reached

theorem Progress.step (progress : Progress nodeid log first s) (step : Step nodeid log s later) :
    Progress nodeid log first later := by
  obtain ⟨owned, promises⟩ := progress
  cases step with
  | fetch here =>
    rw [here] at promises
    exact ⟨owned, promises.2 ▸ promises.1.covers, Nat.le_of_eq promises.2.symm⟩
  | fetchError here => exact ⟨owned, nofun⟩
  | list here =>
    rw [here] at promises
    exact ⟨owned, promises_listed promises.1 promises.2⟩
  | listError here => exact ⟨owned, nofun⟩
  | store here =>
    rw [here] at promises
    obtain ⟨listed, final, covers, after, rfl, last, rfl, ends⟩ := promises
    exact ⟨owned.insert, promises_stored covers after last ends⟩
  | storeError here maybe =>
    rw [here] at promises
    obtain ⟨listed, final, _, _, rfl, _⟩ := promises
    rcases maybe with rfl | rfl
    · exact ⟨owned, nofun⟩
    · exact ⟨owned.insert, nofun⟩

theorem progress_of_reachable (prefixed : Prefixed nodeid log history)
    (reachable : (forwardsSynchronizeOnce nodeid log history).Reachable s) :
    Progress nodeid log (cursorSecond (firstStartTime (fetchLndForwardOffset history nodeid))) s := by
  refine reachable.induct _ ?_ fun _ _ _ _ progress step => progress.step step
  rintro s rfl
  exact ⟨prefixed.owned, prefixed, rfl⟩

/-- The steps that may still follow when no second is crowded. -/
def Phase.rank : Phase → Nat
  | .fetching => 2 * 2 ^ 64 + 2
  | .listing start => 2 * (2 ^ 64 - cursorSecond start) + 1
  | .storing _ start endReached => if endReached then 1 else 2 * (2 ^ 64 - cursorSecond start) + 2
  | .returned _ => 0

theorem cursorSecond_lt (start : UInt64) : cursorSecond start < 2 ^ 64 := UInt64.toNat_lt _

theorem rank_listed_lt (sparse : log.inSecond (cursorSecond start) < maxEvents.toNat) :
    (log.listed start).rank < (Phase.listing start).rank := by
  have bound := cursorSecond_lt start
  unfold ForwardingLog.listed
  split
  · simp only [Phase.rank]
    omega
  · rename_i final last
    by_cases short : (log.pageFrom start).length < maxEvents.toNat
    · simp only [Phase.rank, short, decide_true, if_true]
      omega
    · have full : (log.pageFrom start).length = maxEvents.toNat :=
        Nat.le_antisymm (List.length_take_le _ _) (Nat.le_of_not_lt short)
      have moved := second_lt_of_full last full sparse
      rw [← cursorSecond_time] at moved
      have next := cursorSecond_lt final.timestampNs
      simp only [Phase.rank, short, decide_false, Bool.false_eq_true, if_false]
      omega

theorem Progress.rank_lt (progress : Progress nodeid log first s)
    (sparse : ∀ second, first ≤ second → log.inSecond second < maxEvents.toNat)
    (step : Step nodeid log s later) : later.phase.rank < s.phase.rank := by
  have promises := progress.promises
  cases step with
  | fetch here =>
    have bound := cursorSecond_lt (firstStartTime (fetchLndForwardOffset s.history nodeid))
    simp only [here, Phase.rank]
    omega
  | list here =>
    rw [here] at promises ⊢
    exact rank_listed_lt (sparse _ promises.2)
  | store here =>
    rw [here]
    dsimp only
    split
    · rename_i ends
      simp [Phase.rank, ends]
    · rename_i more
      simp [Phase.rank, more]
  | fetchError here => simp [here, Phase.rank]
  | listError here => simp [here, Phase.rank]
  | storeError here maybe =>
    simp only [here, Phase.rank]
    split <;> omega

/-- The step that is taken when no call fails. -/
def State.next (nodeid : Bytes) (log : ForwardingLog) (s : State) : State :=
  match s.phase with
  | .fetching => { s with phase := .listing (firstStartTime (fetchLndForwardOffset s.history nodeid)) }
  | .listing start => { s with phase := log.listed start }
  | .storing forwards start endReached =>
    { history := insertForwards s.history forwards nodeid
      phase := if endReached then .returned true else .listing start }
  | .returned _ => s

/-- As long as the call has not returned, it can go on. -/
theorem next_step (running : ∀ clean, s.phase ≠ .returned clean) :
    Step nodeid log s (s.next nodeid log) := by
  unfold State.next
  split
  · exact .fetch ‹_›
  · exact .list ‹_›
  · exact .store ‹_›
  · exact absurd ‹_› (running _)

/-- The loop goes on and has not got past a second. -/
def State.Before (nodeid : Bytes) (second : Nat) (s : State) : Prop :=
  match s.phase with
  | .fetching => cursorSecond (firstStartTime (fetchLndForwardOffset s.history nodeid)) ≤ second
  | .listing start => cursorSecond start ≤ second
  | .storing _ start endReached => cursorSecond start ≤ second ∧ endReached = false
  | .returned _ => False

theorem State.Before.running (before : s.Before nodeid second) (clean : Bool) :
    s.phase ≠ .returned clean := by
  intro finished
  simp [State.Before, finished] at before

/-- A crowded second holds the loop up for good. -/
theorem State.Before.next (crowded : maxEvents.toNat ≤ log.inSecond second)
    (before : s.Before nodeid second) : (s.next nodeid log).Before nodeid second := by
  obtain ⟨history, phase⟩ := s
  cases phase with
  | fetching => exact before
  | listing start =>
    obtain ⟨final, last, within, full⟩ := full_of_crowded before crowded
    have listed : log.listed start =
        .storing ((log.pageFrom start).map ForwardingEvent.forward) final.timestampNs false := by
      simp [ForwardingLog.listed, last, full]
    simp only [State.next, listed]
    exact ⟨cursorSecond_time final ▸ within, rfl⟩
  | storing forwards start endReached =>
    obtain ⟨within, rfl⟩ := before
    exact within
  | returned clean => exact before.elim

theorem before_iterate (crowded : maxEvents.toNat ≤ log.inSecond second)
    (before : s.Before nodeid second) (n : Nat) :
    ((State.next nodeid log)^[n] s).Before nodeid second := by
  induction n with
  | zero => exact before
  | succ n ih =>
    rw [Function.iterate_succ_apply']
    exact ih.next crowded

/-- The call ends, and after a call without failures every event is in the
history exactly once. -/
structure Synchronises (nodeid : Bytes) (log : ForwardingLog) (history : ForwardingHistory) :
    Prop where
  terminates : ∀ run : Nat → State, run 0 = ⟨history, .fetching⟩ →
    ∃ n, ¬ Step nodeid log (run n) (run (n + 1))
  complete : ∀ s, (forwardsSynchronizeOnce nodeid log history).Reachable s →
    s.phase = .returned true → ∀ event ∈ log.events, StoredOnce nodeid s.history event

theorem not_synchronises
    (ahead : cursorSecond (firstStartTime (fetchLndForwardOffset history nodeid)) ≤ second)
    (crowded : maxEvents.toNat ≤ log.inSecond second) : ¬ Synchronises nodeid log history := by
  intro synchronises
  obtain ⟨n, ends⟩ := synchronises.terminates
    (fun n => (State.next nodeid log)^[n] ⟨history, .fetching⟩) rfl
  apply ends
  have running := before_iterate (s := ⟨history, .fetching⟩) crowded ahead n
  rw [Function.iterate_succ_apply']
  exact next_step running.running

/-- The synchronisation keeps its promise exactly when no second from the one of
the latest known event on has as many events as a page holds. -/
theorem synchronises_iff_sparse (prefixed : Prefixed nodeid log history) :
    Synchronises nodeid log history ↔
      ∀ second, cursorSecond (firstStartTime (fetchLndForwardOffset history nodeid)) ≤ second →
        log.inSecond second < maxEvents.toNat := by
  constructor
  · intro synchronises second ahead
    by_contra crowded
    exact not_synchronises ahead (Nat.le_of_not_lt crowded) synchronises
  · intro sparse
    refine ⟨?_, ?_⟩
    · intro run start
      have reachable : (forwardsSynchronizeOnce nodeid log history).Reachable (run 0) := .start start
      obtain ⟨n, ends⟩ := reachable.ends (fun s => s.phase.rank) fun s _ later before step =>
        (progress_of_reachable prefixed before).rank_lt sparse step
      exact ⟨n, fun step => ends ⟨(), step⟩⟩
    · intro s reachable finished event member
      have progress := progress_of_reachable prefixed reachable
      have promises := progress.promises
      rw [finished] at promises
      exact progress.owned.storedOnce member (promises rfl event member)

def sampleEvent (timestampNs : UInt64) : ForwardingEvent :=
  { timestampNs, chanIdIn := 1, chanIdOut := 2, amtInMsat := 1010, amtOutMsat := 1000 }

/-- Two events, a second apart. -/
def sampleLog : ForwardingLog where
  events := [sampleEvent 1700000000000000000, sampleEvent 1700000001000000000]
  ascending := by decide

/-- The first of them is known. -/
def sampleHistory : ForwardingHistory :=
  insertForwards .empty [(sampleEvent 1700000000000000000).forward] [2]

theorem synchronises_sample : Prefixed [2] sampleLog sampleHistory ∧
    Synchronises [2] sampleLog sampleHistory := by
  have prefixed : Prefixed [2] sampleLog sampleHistory := by
    refine ⟨1, fun row => ?_⟩
    have rows : sampleHistory.rows = [(sampleEvent 1700000000000000000).forward.row [2]] := rfl
    have early : sampleLog.events.take 1 = [sampleEvent 1700000000000000000] := rfl
    rw [rows, early]
    constructor
    · rintro ⟨member, _⟩
      exact ⟨_, List.mem_singleton_self _, (List.mem_singleton.mp member).symm⟩
    · rintro ⟨event, member, rfl⟩
      rw [List.mem_singleton.mp member]
      exact ⟨List.mem_singleton_self _, rfl⟩
  refine ⟨prefixed, (synchronises_iff_sparse prefixed).mpr fun second _ => ?_⟩
  exact Nat.lt_of_le_of_lt List.countP_le_length (by decide)

private theorem burst_time {n : Nat} (small : n < 10000) :
    (sampleEvent (.ofNat (1700000000000000000 + n))).time = 1700000000000000000 + n := by
  rw [ForwardingEvent.time, sampleEvent, UInt64.toNat_ofNat']
  omega

/-- Events one nanosecond apart. -/
def burst (count : Nat) (fits : count ≤ 10000) : ForwardingLog where
  events := (List.range count).map fun n => sampleEvent (.ofNat (1700000000000000000 + n))
  ascending := by
    rw [List.pairwise_map]
    refine List.pairwise_lt_range.imp_of_mem ?_
    intro one two first second earlier
    have early := Nat.lt_of_lt_of_le (List.mem_range.mp first) fits
    have late := Nat.lt_of_lt_of_le (List.mem_range.mp second) fits
    rw [burst_time early, burst_time late]
    exact Nat.add_lt_add_left earlier _

theorem burst_inSecond (count : Nat) (fits : count ≤ 10000) :
    (burst count fits).inSecond 1700000000 = count := by
  have all : (burst count fits).inSecond 1700000000 = (burst count fits).events.length := by
    rw [ForwardingLog.inSecond, List.countP_eq_length]
    intro event member
    obtain ⟨n, small, rfl⟩ := List.mem_map.mp member
    have bound := Nat.lt_of_lt_of_le (List.mem_range.mp small) fits
    rw [ForwardingEvent.second, burst_time bound, decide_eq_true_eq]
    omega
  rw [all, burst, List.length_map, List.length_range]

/-- As many events in one second as fit a page. -/
def crowdedLog : ForwardingLog := burst maxEvents.toNat (by decide)

/-- The page with all of them is asked for over and over. -/
theorem crowded_not_synchronised : Prefixed [2] crowdedLog .empty ∧
    ¬ Synchronises [2] crowdedLog .empty := by
  have crowded : crowdedLog.inSecond 1700000000 = maxEvents.toNat := burst_inSecond _ _
  exact ⟨⟨0, fun row => by simp [Table.empty]⟩,
    not_synchronises (Nat.zero_le _) (Nat.le_of_eq crowded.symm)⟩

end Lspd.Lnd
