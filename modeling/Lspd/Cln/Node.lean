import Lspd.Store.Page
import Mathlib.Algebra.Group.Nat.Defs

/-! The forwards of a cln node as `ListForwards` shows them, and how they change.
A node keeps what cln promises about its indices. -/

namespace Lspd.Cln

open Lspd.Store

inductive ForwardStatus where
  | offered
  | settled
  | localFailed
  | failed
  deriving DecidableEq

/-- `rpc.ListforwardsRequest_ListforwardsIndex`. -/
inductive ForwardIndex where
  | created
  | updated
  deriving DecidableEq

/-- `rpc.ListforwardsForwards`. -/
structure ListforwardsForwards where
  inChannel : String
  inMsat : Option UInt64
  status : ForwardStatus
  receivedTime : Float
  outChannel : Option String
  outMsat : Option UInt64
  createdIndex : Option UInt64
  updatedIndex : Option UInt64

namespace ListforwardsForwards

def index (forward : ListforwardsForwards) : ForwardIndex → Option UInt64
  | .created => forward.createdIndex
  | .updated => forward.updatedIndex

/-- The index as a number; cln counts from 1. -/
def position (index : ForwardIndex) (forward : ListforwardsForwards) : Nat :=
  (forward.index index).elim 0 UInt64.toNat

/-- What every settled forward carries. -/
structure Complete (forward : ListforwardsForwards) : Prop where
  outChannel : forward.outChannel.isSome
  inMsat : forward.inMsat.isSome
  outMsat : forward.outMsat.isSome
  index : ∀ index, (forward.index index).isSome

theorem Complete.position {forward : ListforwardsForwards} (complete : forward.Complete)
    (index : ForwardIndex) : ∃ value, forward.index index = some value ∧
      forward.position index = value.toNat := by
  obtain ⟨value, present⟩ := Option.isSome_iff_exists.mp (complete.index index)
  exact ⟨value, present, by rw [ListforwardsForwards.position, present, Option.elim_some]⟩

end ListforwardsForwards

/-- The forwards in creation order. `updates` is the last `updated_index` that a
status change got. -/
structure Node where
  forwards : List ListforwardsForwards
  updates : Nat
  complete : ∀ forward ∈ forwards, forward.status = .settled → forward.Complete
  created : forwards.Pairwise fun one two => one.position .created < two.position .created
  updated : ∀ forward ∈ forwards, forward.position .updated ≤ updates
  distinct : forwards.Pairwise fun one two => one.status = .settled → two.status = .settled →
    one.position .updated ≠ two.position .updated
  /-- Indices count up from 1: the largest `uint64` is not reached. -/
  bounded : ∀ forward ∈ forwards, ∀ index, forward.position index < 2 ^ 64 - 1

namespace Node

def empty : Node where
  forwards := []
  updates := 0
  complete := by simp
  created := .nil
  updated := by simp
  distinct := .nil
  bounded := by simp

/-- A forward is created, or its status changes: that gives it a new
`updated_index`, and a settled forward stays as it is. -/
inductive Step (node later : Node) : Prop where
  | create (forward : ListforwardsForwards) (unsettled : forward.status ≠ .settled)
      (grown : later.forwards = node.forwards ++ [forward]) (same : later.updates = node.updates)
  | change (before after : List ListforwardsForwards) (old new : ListforwardsForwards)
      (split : node.forwards = before ++ old :: after) (unsettled : old.status ≠ .settled)
      (same : new.createdIndex = old.createdIndex)
      (changed : later.forwards = before ++ new :: after)
      (next : node.updates < new.position .updated) (last : later.updates = new.position .updated)

variable {node later : Node} {forward : ListforwardsForwards} {index : ForwardIndex}

def settled (node : Node) : List ListforwardsForwards :=
  node.forwards.filter (·.status = .settled)

theorem mem_settled : forward ∈ node.settled ↔
    forward ∈ node.forwards ∧ forward.status = .settled := by
  simp [settled]

/-- The call `ListForwards` with status `SETTLED`. -/
def listForwards (node : Node) (index : ForwardIndex) (start : UInt64) (limit : UInt32) :
    List ListforwardsForwards :=
  page (ListforwardsForwards.position index) node.settled start.toNat limit.toNat

private theorem eq_of_distinct {forwards : List ListforwardsForwards}
    {number : ListforwardsForwards → Nat}
    (distinct : forwards.Pairwise fun one two => number one ≠ number two)
    {one two : ListforwardsForwards} (first : one ∈ forwards) (second : two ∈ forwards)
    (same : number one = number two) : one = two :=
  List.inj_on_of_nodup_map (List.pairwise_map.mpr distinct) first second same

/-- No two forwards have the same `created_index`. -/
theorem created_inj {one two : ListforwardsForwards} (first : one ∈ node.forwards)
    (second : two ∈ node.forwards) (same : one.position .created = two.position .created) :
    one = two :=
  eq_of_distinct (node.created.imp Nat.ne_of_lt) first second same

theorem settled_inj (index : ForwardIndex) :
    ∀ one ∈ node.settled, ∀ two ∈ node.settled,
      one.position index = two.position index → one = two := by
  intro one first two second same
  cases index with
  | created => exact created_inj (mem_settled.mp first).1 (mem_settled.mp second).1 same
  | updated =>
    refine eq_of_distinct ?_ first second same
    refine (node.distinct.filter _).imp_of_mem ?_
    intro left right leftMember rightMember different
    exact different (mem_settled.mp leftMember).2 (mem_settled.mp rightMember).2

theorem Step.settled_sublist (step : Step node later) : node.settled.Sublist later.settled := by
  cases step with
  | create added unsettled grown same =>
    rw [settled, settled, grown]
    exact (List.sublist_append_left _ _).filter _
  | change before after old new split unsettled same changed next last =>
    rw [settled, settled, split, changed, List.filter_append, List.filter_append,
      List.filter_cons_of_neg (by simpa using unsettled)]
    exact (List.Sublist.refl _).append ((List.sublist_cons_self new _).filter _)

/-- A forward that settles gets an `updated_index` beyond all earlier ones. -/
theorem Step.settled_new (step : Step node later) (member : forward ∈ later.settled) :
    forward ∈ node.settled ∨ node.updates < forward.position .updated := by
  obtain ⟨present, settled⟩ := mem_settled.mp member
  cases step with
  | create added unsettled grown same =>
    rw [grown] at present
    rcases List.mem_append.mp present with old | one
    · exact .inl (mem_settled.mpr ⟨old, settled⟩)
    · exact absurd (List.mem_singleton.mp one ▸ settled) unsettled
  | change before after old new split unsettled same changed next last =>
    rw [changed] at present
    rcases List.mem_append.mp present with early | rest
    · exact .inl (mem_settled.mpr ⟨split ▸ List.mem_append_left _ early, settled⟩)
    · rcases List.mem_cons.mp rest with one | late
      · exact .inr (one ▸ next)
      · refine .inl (mem_settled.mpr ⟨?_, settled⟩)
        exact split ▸ List.mem_append_right _ (List.mem_cons_of_mem _ late)

theorem Step.updates_le (step : Step node later) : node.updates ≤ later.updates := by
  cases step with
  | create added unsettled grown same => exact Nat.le_of_eq same.symm
  | change before after old new split unsettled same changed next last => exact last ▸ Nat.le_of_lt next

end Node

end Lspd.Cln
