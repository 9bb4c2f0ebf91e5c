import Lspd.Cln.Listing

/-! What the store holds while the synchronisation runs: every settled forward
behind the offset along `updated_index` has its row. The offset is saved after
the rows, and a forward that settles later lies beyond it. -/

namespace Lspd.Cln

open Lspd.Common Lspd.Lightning Lspd.Postgres Lspd.Store

variable {nodeid : Bytes} {s later : State} {source : ListforwardsForwards} {offset : UInt64}

/-- The row of a forward is in the history as `UpdateForwards` writes it. -/
def Recorded (nodeid : Bytes) (history : ForwardingHistory) (source : ListforwardsForwards) :
    Prop :=
  ∃ forward, historyForward source = .ok (some forward) ∧
    history.find? (nodeid, forward.identifier) = some (forward.row nodeid)

/-- All that settled behind an offset is recorded, and the offset is not beyond
the next `updated_index`. -/
structure Covers (nodeid : Bytes) (s : State) (offset : UInt64) : Prop where
  recorded : ∀ source ∈ s.node.settled, source.position .updated < offset.toNat →
    Recorded nodeid s.history source
  reached : offset.toNat ≤ s.node.updates + 1

theorem Covers.zero (nodeid : Bytes) (s : State) : Covers nodeid s 0 where
  recorded _ _ before := absurd before (Nat.not_lt_zero _)
  reached := Nat.zero_le _

/-- What happens to node and history between two states. -/
structure Grows (nodeid : Bytes) (s later : State) : Prop where
  settled : s.node.settled ⊆ later.node.settled
  new : ∀ source ∈ later.node.settled,
    source ∈ s.node.settled ∨ s.node.updates < source.position .updated
  updates : s.node.updates ≤ later.node.updates
  recorded : ∀ source ∈ s.node.settled,
    Recorded nodeid s.history source → Recorded nodeid later.history source

theorem Grows.of_history (same : later.node = s.node)
    (recorded : ∀ source ∈ s.node.settled,
      Recorded nodeid s.history source → Recorded nodeid later.history source) :
    Grows nodeid s later where
  settled := same ▸ List.Subset.refl _
  new _ member := .inl (same ▸ member)
  updates := same ▸ Nat.le_refl _
  recorded := recorded

theorem Grows.evolve {node : Node} (taken : s.node.Step node) :
    Grows nodeid s { s with node } where
  settled := taken.settled_sublist.subset
  new _ member := taken.settled_new member
  updates := taken.updates_le
  recorded _ _ recorded := recorded

theorem Covers.grow (covers : Covers nodeid s offset) (grows : Grows nodeid s later) :
    Covers nodeid later offset where
  recorded := by
    intro source member before
    rcases grows.new source member with old | beyond
    · exact grows.recorded source old (covers.recorded source old before)
    · have reached := covers.reached
      omega
  reached := Nat.le_trans covers.reached (Nat.succ_le_succ grows.updates)

/-- The rows of this node are unchanged. -/
theorem recorded_of_same {history : ForwardingHistory}
    (rows : ∀ identifier,
      history.find? (nodeid, identifier) = s.history.find? (nodeid, identifier))
    (recorded : Recorded nodeid s.history source) : Recorded nodeid history source := by
  obtain ⟨forward, converted, found⟩ := recorded
  exact ⟨forward, converted, (rows _).trans found⟩

theorem recorded_insertForwards {forwards : List Forward}
    (recorded : Recorded nodeid s.history source) :
    Recorded nodeid (insertForwards s.history forwards nodeid) source := by
  obtain ⟨forward, converted, found⟩ := recorded
  exact ⟨forward, converted, find?_insertForwards found⟩

/-- Rows of one node with one identifier come from one forward. -/
theorem eq_of_identifier {one two : ListforwardsForwards} {first second : Forward}
    (present : one ∈ s.node.settled) (member : two ∈ s.node.settled)
    (converted : historyForward one = .ok (some first))
    (other : historyForward two = .ok (some second))
    (same : first.identifier = second.identifier) : one = two := by
  obtain ⟨left, _, leftIndex, leftName, _⟩ := historyForward_eq converted
  obtain ⟨right, _, rightIndex, rightName, _⟩ := historyForward_eq other
  rw [leftName, rightName] at same
  refine s.node.settled_inj .created one present two member ?_
  simp only [ListforwardsForwards.position, ListforwardsForwards.index, leftIndex, rightIndex,
    formatUint_inj same]

/-- `UpdateForwards` leaves the rows of recorded forwards as they should be. -/
theorem recorded_updateForwards {forwards : List Forward} {history : ForwardingHistory}
    (sourced : ∀ forward ∈ forwards, ∃ source ∈ s.node.settled,
      historyForward source = .ok (some forward))
    (updated : updateForwards s.history forwards nodeid = some history)
    (member : source ∈ s.node.settled) (recorded : Recorded nodeid s.history source) :
    Recorded nodeid history source := by
  obtain ⟨forward, converted, found⟩ := recorded
  refine ⟨forward, converted, ?_⟩
  by_cases touched : ∃ other ∈ forwards, other.identifier = forward.identifier
  · obtain ⟨other, listed, same⟩ := touched
    obtain ⟨origin, present, from_⟩ := sourced other listed
    have equal := eq_of_identifier present member from_ converted same
    rw [equal, converted] at from_
    obtain rfl : forward = other := Option.some.inj (Except.ok.inj from_)
    exact find?_updateForwards_of_mem updated listed
  · rw [find?_updateForwards_of_not_mem updated (fun other listed same =>
      touched ⟨other, listed, same⟩)]
    exact found

/-- The page on its way to the store makes up for what is not recorded yet. -/
structure Pending (nodeid : Bytes) (s : State) (forwards : List Forward) (newOffset : UInt64) :
    Prop where
  sourced : ∀ forward ∈ forwards, ∃ source ∈ s.node.settled,
    historyForward source = .ok (some forward)
  covered : ∀ source ∈ s.node.settled, source.position .updated < newOffset.toNat →
    Recorded nodeid s.history source ∨
      ∃ forward ∈ forwards, historyForward source = .ok (some forward)
  reached : newOffset.toNat ≤ s.node.updates + 1

theorem Pending.grow {forwards : List Forward} (pending : Pending nodeid s forwards offset)
    (grows : Grows nodeid s later) : Pending nodeid later forwards offset where
  sourced := by
    intro forward member
    obtain ⟨source, present, converted⟩ := pending.sourced forward member
    exact ⟨source, grows.settled present, converted⟩
  covered := by
    intro source member before
    rcases grows.new source member with old | beyond
    · exact (pending.covered source old before).imp_left (grows.recorded source old)
    · have reached := pending.reached
      omega
  reached := Nat.le_trans pending.reached (Nat.succ_le_succ grows.updates)

theorem Pending.of_listed {forwards : List Forward} {endReached : Bool}
    (covers : Covers nodeid s s.updatedOffset)
    (listed : Listed s .updated forwards offset endReached) :
    Pending nodeid s forwards offset where
  sourced := listed.sourced
  covered := by
    intro source member before
    by_cases started : s.updatedOffset.toNat ≤ source.position .updated
    · exact .inr (listed.covered source member started before)
    · exact .inl (covers.recorded source member (Nat.lt_of_not_le started))
  reached := by
    obtain ⟨final, member, last⟩ := listed.last
    rw [last]
    exact Nat.succ_le_succ (s.node.updated final (Node.mem_settled.mp member).1)

/-- After `UpdateForwards` the new offset is safe. -/
theorem Pending.stored {forwards : List Forward} {history : ForwardingHistory}
    (pending : Pending nodeid s forwards offset)
    (updated : updateForwards s.history forwards nodeid = some history)
    (node : later.node = s.node) (same : later.history = history) :
    Covers nodeid later offset where
  recorded := by
    intro source member before
    rw [node] at member
    rw [same]
    rcases pending.covered source member before with recorded | ⟨forward, listed, converted⟩
    · exact recorded_updateForwards pending.sourced updated member recorded
    · exact ⟨forward, converted, find?_updateForwards_of_mem updated listed⟩
  reached := node ▸ pending.reached

/-- The offset is past all that was settled at the last listing. -/
def Seen (s : State) (offset : UInt64) : Prop :=
  ∀ source ∈ s.listed, source.status = .settled →
    source ∈ s.node.settled ∧ source.position .updated < offset.toNat

/-- What the phases of the loop along `updated_index` rely on. -/
def State.Expects (nodeid : Bytes) (s : State) : Phase → Prop
  | .storing .updated _ forwards newOffset endReached =>
    Pending nodeid s forwards newOffset ∧ (endReached = true → Seen s newOffset)
  | .saving .updated _ newOffset endReached =>
    Covers nodeid s newOffset ∧ (endReached = true → Seen s newOffset)
  | .waiting clean => clean = true → Seen s s.updatedOffset
  | _ => True

theorem Seen.grow (seen : Seen s offset) (grows : Grows nodeid s later)
    (listed : later.listed = s.listed) : Seen later offset := by
  intro source member settled
  obtain ⟨present, before⟩ := seen source (listed ▸ member) settled
  exact ⟨grows.settled present, before⟩

theorem State.Expects.grow {phase : Phase} (expects : s.Expects nodeid phase)
    (grows : Grows nodeid s later) (listed : later.listed = s.listed)
    (offset : later.updatedOffset = s.updatedOffset) : later.Expects nodeid phase := by
  cases phase with
  | down => trivial
  | listing index clean => trivial
  | storing index clean forwards newOffset endReached =>
    cases index with
    | created => trivial
    | updated => exact ⟨expects.1.grow grows, fun isEnd => (expects.2 isEnd).grow grows listed⟩
  | saving index clean newOffset endReached =>
    cases index with
    | created => trivial
    | updated => exact ⟨expects.1.grow grows, fun isEnd => (expects.2 isEnd).grow grows listed⟩
  | waiting clean =>
    intro isClean
    rw [offset]
    exact (expects isClean).grow grows listed

/-- A loop that ends with an error promises nothing. -/
theorem expects_after_error (nodeid : Bytes) (s : State) (index : ForwardIndex) :
    s.Expects nodeid (.after index false) := by
  cases index with
  | created => trivial
  | updated => exact fun clean => nomatch clean

theorem expects_after (index : ForwardIndex) (clean : Bool)
    (seen : index = .updated → Seen s s.updatedOffset) :
    s.Expects nodeid (.after index clean) := by
  cases index with
  | created => trivial
  | updated => exact fun _ => seen rfl

theorem Grows.store {index : ForwardIndex} {clean endReached : Bool} {forwards : List Forward}
    {history : ForwardingHistory}
    (expects : s.Expects nodeid (.storing index clean forwards offset endReached))
    (stored : s.store nodeid forwards index = some history) (node : later.node = s.node)
    (same : later.history = history) : Grows nodeid s later := by
  refine .of_history node ?_
  intro source member recorded
  rw [same]
  cases index with
  | created =>
    obtain rfl := Option.some.inj stored
    exact recorded_insertForwards recorded
  | updated => exact recorded_updateForwards expects.1.sourced stored member recorded

theorem covers_advance {index : ForwardIndex} {clean endReached : Bool}
    (expects : s.Expects nodeid (.saving index clean offset endReached))
    (memory : Covers nodeid s s.updatedOffset) :
    Covers nodeid s (s.advance offset index).updatedOffset := by
  cases index with
  | created => exact memory
  | updated => exact expects.1

/-- A step that leaves the node and the rows alone. -/
theorem Grows.same (node : later.node = s.node) (history : later.history = s.history) :
    Grows nodeid s later :=
  .of_history node fun _ _ recorded => history ▸ recorded

/-- The invariant: the offset in the database is always safe, and so is the one
in memory while the process runs. -/
structure Synchronised (nodeid : Bytes) (s : State) : Prop where
  saved : Covers nodeid s (fetchClnForwardOffsets s.offsets nodeid).2
  memory : s.phase ≠ .down → Covers nodeid s s.updatedOffset
  expects : s.Expects nodeid s.phase

theorem Synchronised.initial (initial : s.Initial nodeid) : Synchronised nodeid s where
  saved := by
    rw [fetchClnForwardOffsets, initial.offsets]
    exact .zero nodeid s
  memory up := absurd initial.phase up
  expects := by
    rw [initial.phase]
    trivial

/-- Nothing but the phase and what was listed changes. -/
theorem Synchronised.move {phase : Phase} {listed : List ListforwardsForwards} {steps : Nat}
    (synchronised : Synchronised nodeid s) (up : s.phase ≠ .down)
    (expects : State.Expects nodeid { s with phase, listed, steps } phase) :
    Synchronised nodeid { s with phase, listed, steps } where
  saved := synchronised.saved.grow (.same rfl rfl)
  memory _ := (synchronised.memory up).grow (.same rfl rfl)
  expects := expects

theorem Synchronised.sync (synchronised : Synchronised nodeid s)
    (step : SyncStep nodeid s later) : Synchronised nodeid later := by
  have expects := synchronised.expects
  cases step with
  | callError here =>
    exact synchronised.move (by simp [here]) (expects_after_error nodeid _ _)
  | badForward here bad =>
    exact synchronised.move (by simp [here]) (expects_after_error nodeid _ _)
  | @listNothing index clean newOffset endReached here nothing =>
    refine synchronised.move (by simp [here]) (expects_after index clean ?_)
    rintro rfl source member settled
    have present := Node.mem_settled.mpr ⟨member, settled⟩
    exact ⟨present, listed_nothing nothing source present⟩
  | @list index clean forwards newOffset endReached here page some =>
    refine synchronised.move (by simp [here]) ?_
    cases index with
    | created => trivial
    | updated =>
      have covers := synchronised.memory (by simp [here])
      have listed := listed_of_listForwards page some
      refine ⟨(Pending.of_listed covers listed).grow (.same rfl rfl), ?_⟩
      intro isEnd source member settled
      have present := Node.mem_settled.mpr ⟨member, settled⟩
      exact ⟨present, listed.ended isEnd source present⟩
  | @store index clean forwards newOffset endReached history here stored =>
    rw [here] at expects
    have grows : Grows nodeid s { s with
        history, phase := .saving index clean newOffset endReached, steps := s.steps + 1 } :=
      .store expects stored rfl rfl
    refine ⟨synchronised.saved.grow grows, fun _ =>
      (synchronised.memory (by simp [here])).grow grows, ?_⟩
    cases index with
    | created => trivial
    | updated =>
      exact ⟨expects.1.stored stored rfl rfl, fun isEnd => (expects.2 isEnd).grow grows rfl⟩
  | @storeError index clean forwards newOffset endReached history here maybe =>
    rw [here] at expects
    have grows : Grows nodeid s
        { s with history, phase := .after index false, steps := s.steps + 1 } := by
      rcases maybe with same | stored
      · exact .same rfl same
      · exact .store expects stored rfl rfl
    exact ⟨synchronised.saved.grow grows, fun _ =>
      (synchronised.memory (by simp [here])).grow grows, expects_after_error nodeid _ index⟩
  | @save index clean newOffset endReached here =>
    rw [here] at expects
    have covers := covers_advance expects (synchronised.memory (by simp [here]))
    have grows : Grows nodeid s
        { s.advance newOffset index with
          offsets := s.setOffset nodeid newOffset index
          phase := if endReached then .after index clean else .listing index clean
          steps := s.steps + 1
          pages :=
            if endReached then s.pages else Function.update s.pages index (s.pages index + 1) } :=
      .same s.advance_node s.advance_history
    refine ⟨(s.fetch_setOffset ▸ covers).grow grows, fun _ => covers.grow grows, ?_⟩
    cases endReached with
    | false => trivial
    | true =>
      refine expects_after index clean ?_
      rintro rfl
      exact (expects.2 rfl).grow grows rfl
  | @saveError index clean newOffset endReached offsets here maybe =>
    rw [here] at expects
    have memory := synchronised.memory (by simp [here])
    have saved : Covers nodeid s (fetchClnForwardOffsets offsets nodeid).2 := by
      rcases maybe with rfl | rfl
      · exact synchronised.saved
      · exact s.fetch_setOffset ▸ covers_advance expects memory
    exact ⟨saved.grow (.same rfl rfl), fun _ => memory.grow (.same rfl rfl),
      expects_after_error nodeid _ index⟩

theorem Synchronised.step {action : Action} (synchronised : Synchronised nodeid s)
    (step : Step nodeid s action later) : Synchronised nodeid later := by
  obtain ⟨saved, memory, expects⟩ := id synchronised
  cases step with
  | sync taken => exact synchronised.sync taken
  | evolve taken =>
    have grows : Grows nodeid s _ := .evolve taken
    exact ⟨saved.grow grows, fun up => (memory up).grow grows, expects.grow grows rfl rfl⟩
  | @others history offsets rows same =>
    have grows : Grows nodeid s { s with history, offsets } :=
      .of_history rfl fun _ _ recorded => recorded_of_same rows recorded
    have fetched : fetchClnForwardOffsets offsets nodeid =
        fetchClnForwardOffsets s.offsets nodeid := by
      rw [fetchClnForwardOffsets, fetchClnForwardOffsets, same]
    exact ⟨(fetched ▸ saved).grow grows, fun up => (memory up).grow grows,
      expects.grow grows rfl rfl⟩
  | crash =>
    exact ⟨saved.grow (.same rfl rfl), fun up => absurd rfl up, trivial⟩
  | start here =>
    exact ⟨saved.grow (.same rfl rfl), fun _ => saved.grow (.same rfl rfl), trivial⟩
  | startError here =>
    exact ⟨saved.grow (.same rfl rfl), fun _ => .zero nodeid _, trivial⟩
  | round here =>
    exact ⟨saved.grow (.same rfl rfl),
      fun _ => (memory (by simp [here])).grow (.same rfl rfl), trivial⟩

theorem synchronised_of_reachable (reachable : Reachable nodeid s) : Synchronised nodeid s :=
  reachable.induct (Synchronised nodeid) (fun _ => .initial) fun _ _ _ _ synchronised step =>
    synchronised.step step

end Lspd.Cln
