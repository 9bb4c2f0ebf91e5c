import Lspd.Cln.ForwardSync

/-! What one listing tells: its page leaves nothing out up to the new offset,
and a page that does not end the loop moves the offset past many forwards. -/

namespace Lspd.Cln

open Lspd.Common Lspd.Lightning Lspd.Postgres Lspd.Store

variable {index : ForwardIndex} {response : List ListforwardsForwards}
  {forward : ListforwardsForwards} {forwards : List Forward} {newOffset : UInt64}
  {endReached : Bool} {s : State}

/-- The loop skips no complete forward. -/
theorem historyForward_complete (complete : forward.Complete) :
    historyForward forward ≠ .ok none := by
  obtain ⟨outChannel, hasOut⟩ := Option.isSome_iff_exists.mp complete.outChannel
  obtain ⟨inMsat, hasInMsat⟩ := Option.isSome_iff_exists.mp complete.inMsat
  obtain ⟨outMsat, hasOutMsat⟩ := Option.isSome_iff_exists.mp complete.outMsat
  obtain ⟨createdIndex, hasCreated⟩ := Option.isSome_iff_exists.mp (complete.index .created)
  rw [ListforwardsForwards.index] at hasCreated
  simp only [historyForward, hasOut, hasInMsat, hasOutMsat, hasCreated]
  split
  · simp
  · split <;> simp

/-- What a forward of the history says about the one of the node. -/
theorem historyForward_eq {source : ListforwardsForwards} {forward : Forward}
    (converted : historyForward source = .ok (some forward)) :
    ∃ createdIndex outChannel, source.createdIndex = some createdIndex ∧
      forward.identifier = formatUint createdIndex ∧ source.outChannel = some outChannel ∧
      source.inMsat = some forward.inMsat ∧ source.outMsat = some forward.outMsat ∧
      newShortChannelIDFromString source.inChannel = .ok forward.inChannel ∧
      newShortChannelIDFromString outChannel = .ok forward.outChannel := by
  unfold historyForward at converted
  split at converted
  · rename_i outChannel createdIndex inMsat outMsat hasOut hasCreated hasInMsat hasOutMsat
    split at converted
    · cases converted
    · rename_i inScid parsedIn
      split at converted
      · cases converted
      · rename_i outScid parsedOut
        cases converted
        exact ⟨createdIndex, outChannel, hasCreated, rfl, hasOut, hasInMsat, hasOutMsat,
          parsedIn, parsedOut⟩
  · cases converted

theorem collect_complete (complete : ∀ forward ∈ response, forward.Complete)
    {result : List Forward} {lastIndex final : Option UInt64}
    (collected : collect index response result lastIndex = .ok (forwards, final)) :
    ∃ new, forwards = result ++ new ∧
      response.map historyForward = new.map (fun forward => .ok (some forward)) ∧
        final = response.getLast?.elim lastIndex (·.index index) := by
  induction response generalizing result lastIndex with
  | nil =>
    obtain ⟨rfl, rfl⟩ := Prod.mk.inj (Except.ok.inj collected)
    exact ⟨[], by simp⟩
  | cons first rest ih =>
    rw [collect] at collected
    cases converted : historyForward first with
    | error err => simp [converted] at collected
    | ok outcome =>
      cases outcome with
      | none =>
        exact absurd converted (historyForward_complete (complete first List.mem_cons_self))
      | some one =>
        simp only [converted] at collected
        obtain ⟨new, rfl, same, last⟩ := ih
          (fun forward member => complete forward (List.mem_cons_of_mem _ member)) collected
        refine ⟨one :: new, by simp, by simp [converted, same], ?_⟩
        rw [last, List.getLast?_cons]
        cases rest.getLast? <;> rfl

/-- What `listForwards` makes of a response of complete forwards. -/
theorem listForwards_complete (complete : ∀ forward ∈ response, forward.Complete)
    (bounded : ∀ forward ∈ response, forward.position index < 2 ^ 64 - 1)
    (listed : listForwards index response = .ok (forwards, newOffset, endReached)) :
    response.map historyForward = forwards.map (fun forward => .ok (some forward)) ∧
      endReached = decide (response.length < limit.toNat) ∧
        ∀ final, response.getLast? = some final →
          newOffset.toNat = final.position index + 1 := by
  unfold listForwards at listed
  cases collected : collect index response [] none with
  | error err => simp [collected] at listed
  | ok pair =>
    obtain ⟨result, lastIndex⟩ := pair
    simp only [collected, Except.ok.injEq, Prod.mk.injEq] at listed
    obtain ⟨rfl, rfl, rfl⟩ := listed
    obtain ⟨new, rfl, same, last⟩ := collect_complete complete collected
    refine ⟨same, rfl, ?_⟩
    intro final isLast
    have member := List.mem_of_getLast? isLast
    obtain ⟨value, present, position⟩ := (complete final member).position index
    have bound := bounded final member
    rw [position] at bound
    rw [last, isLast, Option.elim_some, present, Option.elim_some, position, UInt64.toNat_add,
      UInt64.toNat_one, Nat.mod_eq_of_lt (by omega)]

/-- What the step from a listing to its page knows. -/
structure Listed (s : State) (index : ForwardIndex) (forwards : List Forward)
    (newOffset : UInt64) (endReached : Bool) : Prop where
  sourced : ∀ forward ∈ forwards, ∃ source ∈ s.node.settled,
    historyForward source = .ok (some forward)
  covered : ∀ source ∈ s.node.settled, (s.offset index).toNat ≤ source.position index →
    source.position index < newOffset.toNat →
      ∃ forward ∈ forwards, historyForward source = .ok (some forward)
  ended : endReached = true → ∀ source ∈ s.node.settled, source.position index < newOffset.toNat
  full : endReached = false →
    behind (ListforwardsForwards.position index) s.node.settled (s.offset index).toNat +
        limit.toNat ≤
      behind (ListforwardsForwards.position index) s.node.settled newOffset.toNat
  last : ∃ final ∈ s.node.settled, newOffset.toNat = final.position index + 1

theorem response_settled (member : forward ∈ s.response index) :
    forward ∈ s.node.settled ∧ (s.offset index).toNat ≤ forward.position index :=
  mem_of_mem_page member

theorem response_complete : ∀ forward ∈ s.response index, forward.Complete := by
  intro forward member
  obtain ⟨present, settled⟩ := Node.mem_settled.mp (response_settled member).1
  exact s.node.complete forward present settled

theorem response_bounded : ∀ forward ∈ s.response index, forward.position index < 2 ^ 64 - 1 := by
  intro forward member
  exact s.node.bounded forward (Node.mem_settled.mp (response_settled member).1).1 index

private theorem mem_forwards {response : List ListforwardsForwards}
    (same : response.map historyForward = forwards.map (fun forward => .ok (some forward)))
    (member : forward ∈ response) : ∃ one ∈ forwards, historyForward forward = .ok (some one) := by
  have converted : historyForward forward ∈ response.map historyForward :=
    List.mem_map_of_mem member
  rw [same] at converted
  obtain ⟨one, present, equal⟩ := List.mem_map.mp converted
  exact ⟨one, present, equal.symm⟩

theorem listed_of_listForwards
    (page : listForwards index (s.response index) = .ok (forwards, newOffset, endReached))
    (some : forwards ≠ []) : Listed s index forwards newOffset endReached := by
  obtain ⟨same, ended, offset⟩ := listForwards_complete response_complete response_bounded page
  have nonempty : s.response index ≠ [] := by
    intro nothing
    rw [nothing] at same
    exact some (List.map_eq_nil_iff.mp same.symm)
  have last := List.getLast?_eq_some_getLast nonempty
  have final := response_settled (List.mem_of_getLast? last)
  have reached := offset _ last
  refine ⟨?_, ?_, ?_, ?_, ⟨_, final.1, reached⟩⟩
  · intro forward member
    have converted : Except.ok (.some forward) ∈ (s.response index).map historyForward :=
      same ▸ List.mem_map_of_mem member
    obtain ⟨source, present, equal⟩ := List.mem_map.mp converted
    exact ⟨source, (response_settled present).1, equal⟩
  · intro source member started before
    rw [reached] at before
    exact mem_forwards same (mem_page_of_le_last (s.node.settled_inj index) last member started
      (Nat.le_of_lt_succ before))
  · intro isEnd source member
    rw [reached, Nat.lt_succ_iff]
    by_cases started : (s.offset index).toNat ≤ source.position index
    · -- a page shorter than `limit` is not cut off at `limit * 2`
      have short : (s.response index).length < (limit * 2).toNat :=
        Nat.lt_of_lt_of_le (of_decide_eq_true (ended.symm.trans isEnd)) (by decide)
      exact le_last last (mem_page_of_short short member started)
    · exact Nat.le_trans (Nat.le_of_not_le started) final.2
  · intro more
    have long : limit.toNat ≤ (s.response index).length :=
      Nat.le_of_not_lt (of_decide_eq_false (ended.symm.trans more))
    rw [reached]
    exact Nat.le_trans (Nat.add_le_add_left long _) (behind_page last)

/-- A listing without a page: the offset is past everything that is settled. -/
theorem listed_nothing
    (nothing : listForwards index (s.response index) = .ok ([], newOffset, endReached)) :
    ∀ source ∈ s.node.settled, source.position index < (s.offset index).toNat := by
  obtain ⟨same, _, _⟩ := listForwards_complete response_complete response_bounded nothing
  have empty : s.response index = [] := List.map_eq_nil_iff.mp same
  have short : (s.response index).length < (limit * 2).toNat := by
    rw [empty]
    decide
  intro source member
  by_contra late
  have present : source ∈ s.response index :=
    mem_page_of_short short member (Nat.le_of_not_lt late)
  rw [empty] at present
  exact List.not_mem_nil present

end Lspd.Cln
