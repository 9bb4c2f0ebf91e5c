import Lspd.Cln.Synchronised

/-! Rounds of the synchronisation: what is in the store after a round without an
error, and why a round ends. -/

namespace Lspd.Cln

open Lspd.Common Lspd.Lightning Lspd.Postgres Lspd.Process Lspd.Store

variable {nodeid : Bytes} {s later : State} {source : ListforwardsForwards}

/-- The steps a round can have taken when it gets to a phase. -/
def Phase.budget (pages : ForwardIndex → Nat) : Phase → Nat
  | .listing .created _ => 3 * pages .created
  | .storing .created _ _ _ _ => 3 * pages .created + 1
  | .saving .created _ _ _ => 3 * pages .created + 2
  | .listing .updated _ => 3 * pages .created + 3 * pages .updated + 3
  | .storing .updated _ _ _ _ => 3 * pages .created + 3 * pages .updated + 4
  | .saving .updated _ _ _ => 3 * pages .created + 3 * pages .updated + 5
  | .waiting _ | .down => 3 * pages .created + 3 * pages .updated + 6

/-- The forwards behind a cursor. -/
def State.passed (s : State) (index : ForwardIndex) (offset : UInt64) : Nat :=
  behind (ListforwardsForwards.position index) s.node.settled offset.toNat

/-- Every page but the last one of a loop has moved the cursor past `limit` forwards. -/
def State.Cursor (s : State) : Phase → Prop
  | .listing index _ => (index = .created → s.pages .updated = 0) ∧
      s.pages index * limit.toNat ≤ s.passed index (s.offset index)
  | .storing index _ _ newOffset endReached | .saving index _ newOffset endReached =>
    (index = .created → s.pages .updated = 0) ∧
      (endReached = false → (s.pages index + 1) * limit.toNat ≤ s.passed index newOffset)
  | .waiting _ | .down => True

structure Paced (s : State) : Prop where
  pages : ∀ index, s.pages index * limit.toNat ≤ s.node.settled.length
  cursor : s.Cursor s.phase
  steps : s.steps ≤ s.phase.budget s.pages

theorem Phase.budget_le (pages : ForwardIndex → Nat) (phase : Phase) :
    phase.budget pages ≤ 3 * pages .created + 3 * pages .updated + 6 := by
  unfold Phase.budget
  split <;> omega

theorem Paced.initial (initial : s.Initial nodeid) : Paced s where
  pages _ := by simp [initial.pages]
  cursor := by simp [initial.phase, State.Cursor]
  steps := by simp [initial.steps]

theorem State.passed_le (s : State) (index : ForwardIndex) (offset : UInt64) :
    s.passed index offset ≤ s.node.settled.length :=
  List.countP_le_length

theorem State.passed_mono (settled : s.node.settled.Sublist later.node.settled)
    (index : ForwardIndex) (offset : UInt64) : s.passed index offset ≤ later.passed index offset :=
  settled.countP_le

theorem State.Cursor.grow {phase : Phase} (cursor : s.Cursor phase)
    (settled : s.node.settled.Sublist later.node.settled) (pages : later.pages = s.pages)
    (offset : ∀ index, later.offset index = s.offset index) : later.Cursor phase := by
  cases phase with
  | down => trivial
  | waiting clean => trivial
  | listing index clean =>
    refine ⟨pages ▸ cursor.1, ?_⟩
    rw [pages, offset]
    exact Nat.le_trans cursor.2 (passed_mono settled index _)
  | storing index clean forwards newOffset endReached =>
    refine ⟨pages ▸ cursor.1, fun more => ?_⟩
    rw [pages]
    exact Nat.le_trans (cursor.2 more) (passed_mono settled index _)
  | saving index clean newOffset endReached =>
    refine ⟨pages ▸ cursor.1, fun more => ?_⟩
    rw [pages]
    exact Nat.le_trans (cursor.2 more) (passed_mono settled index _)

/-- The loop along `updated_index` starts without pages. -/
theorem cursor_after {index : ForwardIndex} (clean : Bool)
    (unused : index = .created → s.pages .updated = 0) : s.Cursor (.after index clean) := by
  cases index with
  | created => exact ⟨nofun, by simp [unused rfl]⟩
  | updated => trivial

/-- A loop is left from any of its phases. -/
def Phase.Within (index : ForwardIndex) : Phase → Prop
  | .listing own _ | .storing own _ _ _ _ | .saving own _ _ _ => own = index
  | .waiting _ | .down => False

theorem State.Cursor.unused {phase : Phase} {index : ForwardIndex} (cursor : s.Cursor phase)
    (within : phase.Within index) : index = .created → s.pages .updated = 0 := by
  cases phase with
  | listing own clean => exact within ▸ cursor.1
  | storing own clean forwards newOffset endReached => exact within ▸ cursor.1
  | saving own clean newOffset endReached => exact within ▸ cursor.1
  | waiting clean => exact within.elim
  | down => exact within.elim

theorem Phase.budget_after {phase : Phase} {index : ForwardIndex} (within : phase.Within index)
    (clean : Bool) (pages : ForwardIndex → Nat) :
    phase.budget pages + 1 ≤ (Phase.after index clean).budget pages := by
  cases phase with
  | listing own kept =>
    have same : own = index := within
    rw [same]
    cases index <;> simp only [Phase.after, Phase.budget] <;> omega
  | storing own kept forwards newOffset endReached =>
    have same : own = index := within
    rw [same]
    cases index <;> simp only [Phase.after, Phase.budget] <;> omega
  | saving own kept newOffset endReached =>
    have same : own = index := within
    rw [same]
    cases index <;> simp only [Phase.after, Phase.budget] <;> omega
  | waiting kept => exact within.elim
  | down => exact within.elim

theorem Paced.leave {index : ForwardIndex} {clean : Bool} (paced : Paced s)
    (within : s.phase.Within index) (node : later.node = s.node) (pages : later.pages = s.pages)
    (phase : later.phase = .after index clean) (steps : later.steps = s.steps + 1) :
    Paced later where
  pages := by
    rw [node, pages]
    exact paced.pages
  cursor := by
    rw [phase]
    exact cursor_after clean (pages ▸ paced.cursor.unused within)
  steps := by
    rw [phase, pages, steps]
    exact Nat.le_trans (Nat.succ_le_succ paced.steps) (Phase.budget_after within clean s.pages)

theorem Paced.sync (paced : Paced s) (step : SyncStep nodeid s later) : Paced later := by
  obtain ⟨pages, cursor, steps⟩ := id paced
  cases step with
  | callError here => exact paced.leave (here ▸ rfl) rfl rfl rfl rfl
  | badForward here bad => exact paced.leave (here ▸ rfl) rfl rfl rfl rfl
  | listNothing here nothing => exact paced.leave (here ▸ rfl) rfl rfl rfl rfl
  | @list index clean forwards newOffset endReached here page some =>
    rw [here] at cursor steps
    refine ⟨pages, ⟨cursor.1, ?_⟩, ?_⟩
    · intro more
      have full := (listed_of_listForwards page some).full more
      rw [Nat.succ_mul]
      exact Nat.le_trans (Nat.add_le_add_right cursor.2 _) full
    · cases index <;> exact Nat.succ_le_succ steps
  | @store index clean forwards newOffset endReached history here stored =>
    rw [here] at cursor steps
    refine ⟨pages, cursor, ?_⟩
    cases index <;> exact Nat.succ_le_succ steps
  | storeError here maybe => exact paced.leave (here ▸ rfl) rfl rfl rfl rfl
  | @save index clean newOffset endReached here =>
    cases endReached with
    | true => exact paced.leave (here ▸ rfl) s.advance_node rfl rfl rfl
    | false =>
      rw [here] at cursor steps
      have turned := cursor.2 rfl
      refine ⟨?_, ⟨?_, ?_⟩, ?_⟩
      · intro other
        by_cases same : other = index
        · simpa [same] using Nat.le_trans turned (s.passed_le index newOffset)
        · simpa [same] using pages other
      · intro isCreated
        simpa [isCreated] using cursor.1 isCreated
      · cases index <;> simpa [State.passed, State.offset, State.advance] using turned
      · cases index <;> simp [Phase.budget] at steps ⊢ <;> omega
  | saveError here maybe => exact paced.leave (here ▸ rfl) rfl rfl rfl rfl

theorem Paced.beginRound (s : State) : Paced s.beginRound where
  pages _ := by simp [State.beginRound]
  cursor := ⟨fun _ => rfl, by simp [State.beginRound]⟩
  steps := Nat.le_refl 0

theorem Paced.step {action : Action} (paced : Paced s) (step : Step nodeid s action later) :
    Paced later := by
  obtain ⟨pages, cursor, steps⟩ := id paced
  cases step with
  | sync taken => exact paced.sync taken
  | evolve taken =>
    have settled := taken.settled_sublist
    refine ⟨fun index => Nat.le_trans (pages index) settled.length_le, ?_, steps⟩
    refine cursor.grow settled rfl ?_
    intro index
    cases index <;> rfl
  | others rows saved => exact ⟨pages, cursor, steps⟩
  | crash => exact ⟨pages, trivial, Nat.le_trans steps (Phase.budget_le _ _)⟩
  | start here => exact .beginRound _
  | startError here => exact .beginRound _
  | round here => exact .beginRound s

theorem paced_of_reachable (reachable : Reachable nodeid s) : Paced s :=
  reachable.induct Paced (fun _ => .initial) fun _ _ _ _ paced step => paced.step step

/-- The number of steps of a round, by the number of settled forwards. -/
theorem Paced.steps_le (paced : Paced s) :
    s.steps ≤ 6 * (s.node.settled.length / limit.toNat) + 6 := by
  have budget := Nat.le_trans paced.steps (Phase.budget_le s.pages s.phase)
  have turned (index : ForwardIndex) : s.pages index ≤ s.node.settled.length / limit.toNat :=
    (Nat.le_div_iff_mul_le (by decide)).mpr (paced.pages index)
  have first := turned .created
  have second := turned .updated
  omega

/-- The history holds exactly one row for a forward, with its channels and amounts. -/
def HasRow (nodeid : Bytes) (history : ForwardingHistory) (source : ListforwardsForwards) :
    Prop :=
  ∃ createdIndex outChannel inMsat outMsat inScid outScid row,
    source.createdIndex = some createdIndex ∧ source.outChannel = some outChannel ∧
    source.inMsat = some inMsat ∧ source.outMsat = some outMsat ∧
    newShortChannelIDFromString source.inChannel = .ok inScid ∧
    newShortChannelIDFromString outChannel = .ok outScid ∧
    history.rows.filter (fun row => row.key = (nodeid, formatUint createdIndex)) = [row] ∧
    row.chanidIn = inScid.toInt64 ∧ row.chanidOut = outScid.toInt64 ∧
    row.amtMsatIn = inMsat.toInt64 ∧ row.amtMsatOut = outMsat.toInt64

theorem Recorded.hasRow {history : ForwardingHistory} (recorded : Recorded nodeid history source) :
    HasRow nodeid history source := by
  obtain ⟨forward, converted, found⟩ := recorded
  obtain ⟨createdIndex, outChannel, hasCreated, name, hasOut, hasIn, hasOutMsat, parsedIn,
    parsedOut⟩ := historyForward_eq converted
  exact ⟨createdIndex, outChannel, forward.inMsat, forward.outMsat, forward.inChannel,
    forward.outChannel, forward.row nodeid, hasCreated, hasOut, hasIn, hasOutMsat, parsedIn,
    parsedOut, Table.filter_key (name ▸ found), rfl, rfl, rfl, rfl⟩

/-- A run without a crash on a node with finitely many forwards, in which the
synchronisation gets its turn until the round is over. -/
structure Ongoing (nodeid : Bytes) (run : Nat → State) (total : Nat) : Prop where
  step : ∀ n, ∃ action, Step nodeid (run n) action (run (n + 1))
  up : ∀ n, (run n).phase ≠ .down
  finite : ∀ n, (run n).node.forwards.length ≤ total
  turn : ∀ n, (∀ clean, (run n).phase ≠ .waiting clean) →
    ∃ m, n ≤ m ∧ SyncStep nodeid (run m) (run (m + 1))

theorem SyncStep.counted (step : SyncStep nodeid s later) : later.steps = s.steps + 1 := by
  cases step <;> rfl

/-- Within a round, no step goes uncounted. -/
theorem Step.counted {action : Action} (step : Step nodeid s action later) (up : s.phase ≠ .down)
    (still : later.phase ≠ .down) (running : ∀ clean, s.phase ≠ .waiting clean) :
    s.steps ≤ later.steps := by
  cases step with
  | sync taken => exact taken.counted ▸ Nat.le_succ _
  | evolve taken => exact Nat.le_refl _
  | others rows saved => exact Nat.le_refl _
  | crash => exact absurd rfl still
  | start here => exact absurd here up
  | startError here => exact absurd here up
  | round here => exact absurd here (running _)

theorem Ongoing.ends {run : Nat → State} {total : Nat} (ongoing : Ongoing nodeid run total)
    (start : Reachable nodeid (run 0)) : ∃ n clean, (run n).phase = .waiting clean := by
  refine Machine.eventually_of_count (fun s => ∃ clean, s.phase = .waiting clean) State.steps
    (6 * (total / limit.toNat) + 6) ?_ ?_ ?_
  · intro n
    have bound := (paced_of_reachable (start.endless ongoing.step n)).steps_le
    have few : (run n).node.settled.length ≤ total :=
      Nat.le_trans (List.length_filter_le _ _) (ongoing.finite n)
    have pages := Nat.div_le_div_right few (c := limit.toNat)
    omega
  · intro n running
    obtain ⟨action, taken⟩ := ongoing.step n
    exact taken.counted (ongoing.up n) (ongoing.up (n + 1)) fun clean here => running ⟨clean, here⟩
  · intro n running
    obtain ⟨m, later, taken⟩ := ongoing.turn n fun clean here => running ⟨clean, here⟩
    exact ⟨m, later, Nat.lt_of_lt_of_eq (Nat.lt_succ_self _) taken.counted.symm⟩

/-- The synchronisation goes on, and all calls to the store succeed that can. -/
def State.syncNext (nodeid : Bytes) (s : State) : State :=
  match s.phase with
  | .down | .waiting _ => s
  | .listing index clean =>
    match listForwards index (s.response index) with
    | .error _ =>
      { s with phase := .after index false, steps := s.steps + 1, listed := s.node.forwards }
    | .ok ([], _, _) =>
      { s with phase := .after index clean, steps := s.steps + 1, listed := s.node.forwards }
    | .ok (forwards, newOffset, endReached) =>
      { s with
        phase := .storing index clean forwards newOffset endReached
        steps := s.steps + 1
        listed := s.node.forwards }
  | .storing index clean forwards newOffset endReached =>
    match s.store nodeid forwards index with
    | none => { s with phase := .after index false, steps := s.steps + 1 }
    | some history =>
      { s with history, phase := .saving index clean newOffset endReached, steps := s.steps + 1 }
  | .saving index clean newOffset endReached =>
    { s.advance newOffset index with
      offsets := s.setOffset nodeid newOffset index
      phase := if endReached then .after index clean else .listing index clean
      steps := s.steps + 1
      pages := if endReached then s.pages else Function.update s.pages index (s.pages index + 1) }

theorem syncStep_syncNext (up : s.phase ≠ .down) (running : ∀ clean, s.phase ≠ .waiting clean) :
    SyncStep nodeid s (s.syncNext nodeid) := by
  cases here : s.phase with
  | down => exact absurd here up
  | waiting clean => exact absurd here (running clean)
  | listing index clean =>
    simp only [State.syncNext, here]
    split
    next bad => exact .badForward here bad
    next nothing => exact .listNothing here nothing
    next some page => exact .list here page some
  | storing index clean forwards newOffset endReached =>
    simp only [State.syncNext, here]
    split
    next => exact .storeError here (.inl rfl)
    next stored => exact .store here stored
  | saving index clean newOffset endReached =>
    simp only [State.syncNext, here]
    exact .save here

theorem SyncStep.kept (step : SyncStep nodeid s later) :
    later.node = s.node ∧ later.phase ≠ .down := by
  cases step with
  | save here => exact ⟨s.advance_node, by split_ifs <;> cases ‹ForwardIndex› <;> nofun⟩
  | callError | badForward | listNothing | storeError | saveError =>
    exact ⟨rfl, by cases ‹ForwardIndex› <;> nofun⟩
  | list | store => exact ⟨rfl, nofun⟩

theorem syncNext_of_waiting {clean : Bool} (here : s.phase = .waiting clean) :
    s.syncNext nodeid = s := by
  simp only [State.syncNext, here]

theorem syncNext_kept (up : s.phase ≠ .down) :
    (s.syncNext nodeid).node = s.node ∧ (s.syncNext nodeid).phase ≠ .down := by
  by_cases waits : ∃ clean, s.phase = .waiting clean
  · obtain ⟨clean, here⟩ := waits
    rw [syncNext_of_waiting here]
    exact ⟨rfl, up⟩
  · exact (syncStep_syncNext up (not_exists.mp waits)).kept

/-- From every state in which the process is up, the synchronisation can go on alone. -/
theorem ongoing_syncNext (up : s.phase ≠ .down) :
    Ongoing nodeid (fun n => (State.syncNext nodeid)^[n] s) s.node.forwards.length := by
  have kept : ∀ n, ((State.syncNext nodeid)^[n] s).node = s.node ∧
      ((State.syncNext nodeid)^[n] s).phase ≠ .down := by
    intro n
    induction n with
    | zero => exact ⟨rfl, up⟩
    | succ n ih =>
      rw [Function.iterate_succ_apply']
      obtain ⟨node, still⟩ := syncNext_kept ih.2
      exact ⟨node.trans ih.1, still⟩
  refine ⟨fun n => ?_, fun n => (kept n).2, fun n => (kept n).1 ▸ Nat.le_refl _, fun n running => ?_⟩
  · simp only [Function.iterate_succ_apply']
    by_cases waits : ∃ clean, ((State.syncNext nodeid)^[n] s).phase = .waiting clean
    · obtain ⟨clean, here⟩ := waits
      rw [syncNext_of_waiting here]
      exact ⟨.others, .others (fun _ => rfl) rfl⟩
    · exact ⟨.sync, .sync (syncStep_syncNext (kept n).2 (not_exists.mp waits))⟩
  · refine ⟨n, Nat.le_refl n, ?_⟩
    simp only [Function.iterate_succ_apply']
    exact syncStep_syncNext (kept n).2 running

/-- After a round without an error, the history has exactly one row for each
forward that was settled at the last listing, and every round comes to an end
when the forwards are finitely many. -/
theorem forwards_synchronised (reachable : Reachable nodeid s) :
    (s.phase = .waiting true →
      ∀ source ∈ s.listed, source.status = .settled → HasRow nodeid s.history source) ∧
    ∀ run total, run 0 = s → Ongoing nodeid run total →
      ∃ n clean, (run n).phase = .waiting clean := by
  have synchronised := synchronised_of_reachable reachable
  constructor
  · intro clean source member settled
    have expects := synchronised.expects
    rw [clean] at expects
    obtain ⟨present, before⟩ := expects rfl source member settled
    have covers := synchronised.memory (by simp [clean])
    exact (covers.recorded source present before).hasRow
  · intro run total start ongoing
    exact ongoing.ends (start ▸ reachable)

def sampleForward (status : ForwardStatus) (updatedIndex : Option UInt64) :
    ListforwardsForwards :=
  { inChannel := "1x1x1"
    inMsat := some 1010
    status
    receivedTime := 0
    outChannel := some "2x2x2"
    outMsat := some 1000
    createdIndex := some 1
    updatedIndex }

/-- A node with one forward. -/
def Node.single (forward : ListforwardsForwards)
    (complete : forward.status = .settled → forward.Complete)
    (bounded : ∀ index, forward.position index < 2 ^ 64 - 1) : Node where
  forwards := [forward]
  updates := forward.position .updated
  complete := by simpa using complete
  created := List.pairwise_singleton _ _
  updated := by simp
  distinct := List.pairwise_singleton _ _
  bounded := by simpa using bounded

def sampleOffered : Node :=
  .single (sampleForward .offered none) nofun (by intro index; cases index <;> decide)

def sampleSettled : Node :=
  .single (sampleForward .settled (some 1))
    (fun _ => ⟨rfl, rfl, rfl, by intro index; cases index <;> rfl⟩)
    (by intro index; cases index <;> decide)

def sampleState : State :=
  { node := .empty
    history := .empty
    offsets := .empty
    createdOffset := 0
    updatedOffset := 0
    phase := .down
    listed := []
    pages := fun _ => 0
    steps := 0 }

/-- A forward that settled before the first round, and the round, which nothing disturbs. -/
theorem forwards_synchronised_sample :
    (∃ s, Reachable [] s ∧ s.phase = .waiting true ∧
      ∃ source ∈ s.listed, source.status = .settled ∧ HasRow [] s.history source) ∧
    ∃ s, Reachable [] s ∧ s.phase = .listing .created true ∧ s.node = sampleSettled ∧
      ∃ n clean, ((State.syncNext [])^[n] s).phase = .waiting clean := by
  have first : Reachable [] sampleState := .start ⟨rfl, rfl, rfl, rfl, rfl, rfl⟩
  have offer : Node.empty.Step sampleOffered := .create (sampleForward .offered none) nofun rfl rfl
  have settle : sampleOffered.Step sampleSettled :=
    .change [] [] _ (sampleForward .settled (some 1)) rfl nofun rfl rfl (by decide) rfl
  have started := ((first.step (.evolve offer)).step (.evolve settle)).step (.start rfl)
  have listed := started.step (.sync (.list rfl rfl (by simp)))
  have saved := (listed.step (.sync (.store rfl rfl))).step (.sync (.save rfl))
  have updated := saved.step (.sync (.list rfl rfl (by simp)))
  have finished := (updated.step (.sync (.store rfl rfl))).step (.sync (.save rfl))
  refine ⟨⟨_, finished, rfl, _, .head _, rfl, (forwards_synchronised finished).1 rfl _ (.head _) rfl⟩,
    _, started, rfl, rfl, ?_⟩
  exact (forwards_synchronised started).2 _ _ rfl (ongoing_syncNext nofun)

end Lspd.Cln
