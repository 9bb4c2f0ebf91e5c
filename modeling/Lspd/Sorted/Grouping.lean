import Mathlib.Algebra.BigOperators.Group.List.Basic
import Mathlib.Algebra.GroupWithZero.Nat
import Mathlib.Data.List.Basic

/-! Totals per key: entries are added to a running group, and a new group begins where
the key changes. Over a list sorted by the key, there is one group for each key. -/

namespace Lspd.Sorted

open Std

section groups

variable {Entry Group Key : Type} [DecidableEq Key] (key : Entry → Key) (groupKey : Group → Key)
  (start : Key → Group) (add : Group → Entry → Group)

/-- The running group with the entries that follow, and the groups after it. -/
def groupFrom (current : Group) : List Entry → List Group
  | [] => [current]
  | entry :: rest =>
    if groupKey current = key entry then groupFrom (add current entry) rest
    else current :: groupFrom (add (start (key entry)) entry) rest

def groupAll : List Entry → List Group
  | [] => []
  | entry :: rest => groupFrom key groupKey start add (add (start (key entry)) entry) rest

/-- One group for every key of the entries, which holds the entries with that key. -/
structure Grouped (entries : List Entry) (groups : List Group) : Prop where
  distinct : (groups.map groupKey).Nodup
  total : ∀ entry ∈ entries, key entry ∈ groups.map groupKey
  held : ∀ group ∈ groups, (∃ entry ∈ entries, key entry = groupKey group) ∧
    group = (entries.filter fun entry => key entry = groupKey group).foldl add
      (start (groupKey group))

variable {key groupKey start add} {entries before : List Entry} {groups : List Group} {wanted : Key}

omit [DecidableEq Key] in
theorem groupKey_foldl (kept : ∀ group entry, groupKey (add group entry) = groupKey group)
    (entries : List Entry) (group : Group) :
    groupKey (entries.foldl add group) = groupKey group := by
  induction entries generalizing group with
  | nil => rfl
  | cons entry rest ih => rw [List.foldl_cons, ih, kept]

/-- A group of all entries with one key, in front of groups of other keys. -/
theorem Grouped.cons (starts : ∀ wanted, groupKey (start wanted) = wanted)
    (kept : ∀ group entry, groupKey (add group entry) = groupKey group)
    (grouped : Grouped key groupKey start add entries groups) (some : before ≠ [])
    (same : ∀ entry ∈ before, key entry = wanted) (other : ∀ entry ∈ entries, key entry ≠ wanted) :
    Grouped key groupKey start add (before ++ entries)
      (before.foldl add (start wanted) :: groups) := by
  have first : groupKey (before.foldl add (start wanted)) = wanted := by
    rw [groupKey_foldl kept, starts]
  have apart : wanted ∉ groups.map groupKey := by
    intro member
    obtain ⟨group, among, rfl⟩ := List.mem_map.mp member
    obtain ⟨entry, inside, agrees⟩ := (grouped.held group among).1
    exact other entry inside agrees
  refine ⟨?_, ?_, ?_⟩
  · rw [List.map_cons, first]
    exact List.nodup_cons.mpr ⟨apart, grouped.distinct⟩
  · intro entry member
    rw [List.map_cons, first]
    rcases List.mem_append.mp member with early | late
    · exact same entry early ▸ List.mem_cons_self
    · exact List.mem_cons_of_mem _ (grouped.total entry late)
  · intro group member
    rcases List.mem_cons.mp member with rfl | late
    · obtain ⟨entry, early⟩ := List.exists_mem_of_ne_nil before some
      refine ⟨⟨entry, List.mem_append_left _ early, by rw [first, same entry early]⟩, ?_⟩
      rw [first, List.filter_append, List.filter_eq_self.mpr (by simpa using same),
        List.filter_eq_nil_iff.mpr (by simpa using other), List.append_nil]
    · obtain ⟨⟨entry, inside, agrees⟩, filtered⟩ := grouped.held group late
      refine ⟨⟨entry, List.mem_append_right _ inside, agrees⟩, ?_⟩
      have none : before.filter (fun entry => key entry = groupKey group) = [] := by
        rw [List.filter_eq_nil_iff]
        intro entry early
        have different : wanted ≠ groupKey group :=
          fun equal => apart (equal ▸ List.mem_map_of_mem late)
        simpa [same entry early] using different
      rw [List.filter_append, none, List.nil_append]
      exact filtered

variable {compare : Key → Key → Ordering} [TransCmp compare] [LawfulEqCmp compare]

/-- The groups from the running one on, which has the entries before. -/
theorem groupFrom_grouped (starts : ∀ wanted, groupKey (start wanted) = wanted)
    (kept : ∀ group entry, groupKey (add group entry) = groupKey group) (some : before ≠ [])
    (same : ∀ entry ∈ before, key entry = wanted)
    (sorted : entries.Pairwise fun one two => (compare (key one) (key two)).isLE)
    (later : ∀ entry ∈ entries, (compare wanted (key entry)).isLE) :
    Grouped key groupKey start add (before ++ entries)
      (groupFrom key groupKey start add (before.foldl add (start wanted)) entries) := by
  have empty : Grouped key groupKey start add [] [] :=
    ⟨List.nodup_nil, List.forall_mem_nil _, List.forall_mem_nil _⟩
  induction entries generalizing before wanted with
  | nil => exact empty.cons starts kept some same (List.forall_mem_nil _)
  | cons entry rest ih =>
    obtain ⟨above, restSorted⟩ := List.pairwise_cons.mp sorted
    rw [groupFrom, groupKey_foldl kept, starts]
    by_cases here : wanted = key entry
    · -- the running group also takes this entry
      have longer : ∀ member ∈ before ++ [entry], key member = wanted := by
        simpa [or_imp, forall_and, here] using same
      have grouped := ih (List.append_ne_nil_of_left_ne_nil some [entry]) longer restSorted
        (fun member inside => here ▸ above member inside)
      rw [List.append_assoc, List.singleton_append, List.foldl_concat] at grouped
      rwa [if_pos here]
    · -- nothing from here on has the key of the running group
      have other : ∀ member ∈ entry :: rest, key member ≠ wanted := by
        intro member inside equal
        apply here
        have upper : (compare (key entry) wanted).isLE := by
          rcases List.mem_cons.mp inside with rfl | behind
          · exact equal ▸ ReflCmp.isLE_rfl
          · exact equal ▸ above member behind
        exact LawfulEqCmp.eq_of_compare
          (OrientedCmp.isLE_antisymm (later entry List.mem_cons_self) upper)
      have grouped := ih (List.cons_ne_nil entry []) (by simp) restSorted above
      rw [if_neg here]
      exact grouped.cons starts kept some same other

theorem groupAll_grouped (starts : ∀ wanted, groupKey (start wanted) = wanted)
    (kept : ∀ group entry, groupKey (add group entry) = groupKey group)
    (sorted : entries.Pairwise fun one two => (compare (key one) (key two)).isLE) :
    Grouped key groupKey start add entries (groupAll key groupKey start add entries) := by
  cases entries with
  | nil => exact ⟨List.nodup_nil, List.forall_mem_nil _, List.forall_mem_nil _⟩
  | cons entry rest =>
    obtain ⟨above, restSorted⟩ := List.pairwise_cons.mp sorted
    exact groupFrom_grouped starts kept (List.cons_ne_nil entry []) (by simp) restSorted above

end groups

section sums

variable {Entry Label : Type} [DecidableEq Label] {labels : List Label} {entries : List Entry}

/-- One label of a list without duplicates counts once. -/
theorem sum_map_once (distinct : labels.Nodup) {label : Label} (member : label ∈ labels)
    (weight : Nat) : (labels.map fun other => if label = other then weight else 0).sum = weight := by
  have once : labels.filter (fun other => label = other) = [label] := by
    simp only [@eq_comm _ label]
    rw [List.filter_eq, List.Nodup.count distinct, if_pos member]
    rfl
  rw [List.sum_map_ite, once]
  simp

/-- The sums over the entries of each label add up to the sum over all entries that have one. -/
theorem sum_by_label (distinct : labels.Nodup) (label : Entry → Option Label)
    (weight : Entry → Nat)
    (covered : ∀ entry ∈ entries, ∀ one, label entry = some one → one ∈ labels) :
    (labels.map fun one => ((entries.filter fun entry => label entry = some one).map weight).sum).sum
      = ((entries.filter fun entry => (label entry).isSome).map weight).sum := by
  induction entries with
  | nil => simp
  | cons entry rest ih =>
    have others := ih fun member inside => covered member (List.mem_cons_of_mem _ inside)
    have step (one : Label) :
        (((entry :: rest).filter fun member => label member = some one).map weight).sum =
          (if label entry = some one then weight entry else 0) +
            ((rest.filter fun member => label member = some one).map weight).sum := by
      by_cases here : label entry = some one <;> simp [here]
    simp only [step, List.sum_map_add, others]
    cases here : label entry with
    | none => simp [here]
    | some own =>
      have once := sum_map_once distinct (covered entry List.mem_cons_self own here) (weight entry)
      simp only [Option.some.injEq, once]
      simp [here]

/-- The last number is the whole sum only if the others are 0. -/
theorem sum_eq_getLast_iff (values : List Nat) :
    (values.getLast?.getD 0 = values.sum) ↔ ∀ value ∈ values.dropLast, value = 0 := by
  rcases List.eq_nil_or_concat values with rfl | ⟨others, last, rfl⟩
  · simp
  · rw [List.concat_eq_append, List.dropLast_concat, List.getLast?_concat, Option.getD_some,
      List.sum_append, List.sum_singleton, ← List.sum_eq_zero_iff_forall_eq_nat]
    omega

end sums

end Lspd.Sorted
