import Mathlib.Data.List.Nodup
import Mathlib.Logic.Function.Basic

/-! Maps of maps that are kept without empty inner maps: an inner map is made with its
first entry and removed with its last. -/

namespace Lspd.Store

/-- The inner maps are lists of their entries. -/
abbrev Nested (Topic Value : Type) := Topic → Option (List (Nat × Value))

namespace Nested

variable {Topic Value : Type} [DecidableEq Topic]

def insert (map : Nested Topic Value) (topic : Topic) (id : Nat) (value : Value) :
    Nested Topic Value :=
  Function.update map topic
    (some (((map topic).getD []).filter (fun entry => entry.1 ≠ id) ++ [(id, value)]))

def remove (map : Nested Topic Value) (topic : Topic) (id : Nat) : Nested Topic Value :=
  match map topic with
  | none => map
  | some entries =>
    let left := entries.filter fun entry => entry.1 ≠ id
    Function.update map topic (if left.isEmpty then none else some left)

def Has (map : Nested Topic Value) (topic : Topic) (id : Nat) (value : Value) : Prop :=
  ∃ entries, map topic = some entries ∧ (id, value) ∈ entries

/-- Inner maps have entries, and one for each id. -/
def Tidy (map : Nested Topic Value) : Prop :=
  ∀ topic entries, map topic = some entries → entries ≠ [] ∧ (entries.map Prod.fst).Nodup

variable {map : Nested Topic Value} {topic wanted : Topic} {id key : Nat} {value other : Value}

omit [DecidableEq Topic] in
theorem has_iff_getD : map.Has topic id value ↔ (id, value) ∈ (map topic).getD [] := by
  unfold Has
  cases map topic <;> simp

theorem has_insert :
    (map.insert topic id value).Has wanted key other ↔
      (wanted = topic ∧ key = id ∧ other = value) ∨
        map.Has wanted key other ∧ ¬(wanted = topic ∧ key = id) := by
  by_cases here : wanted = topic
  · subst here
    rw [has_iff_getD, has_iff_getD, insert, Function.update_self, Option.getD_some,
      List.mem_append, List.mem_filter, List.mem_singleton, Prod.mk.injEq]
    simp only [decide_eq_true_eq, true_and, ne_eq]
    exact or_comm
  · rw [has_iff_getD, has_iff_getD, insert, Function.update_of_ne here]
    simp [here]

theorem has_remove :
    (map.remove topic id).Has wanted key other ↔
      map.Has wanted key other ∧ ¬(wanted = topic ∧ key = id) := by
  unfold remove
  split
  · rename_i missing
    refine ⟨fun has => ⟨has, ?_⟩, fun has => has.1⟩
    rintro ⟨rfl, rfl⟩
    obtain ⟨entries, found, _⟩ := has
    rw [missing] at found
    cases found
  · rename_i entries found
    by_cases here : wanted = topic
    · subst here
      have left : ((if (entries.filter fun entry => entry.1 ≠ id).isEmpty then none
          else some (entries.filter fun entry => entry.1 ≠ id)).getD []) =
            entries.filter fun entry => entry.1 ≠ id := by
        split_ifs with empty
        · exact (List.isEmpty_iff.mp empty).symm
        · rfl
      rw [has_iff_getD, has_iff_getD, Function.update_self, left, found, Option.getD_some,
        List.mem_filter]
      simp
    · rw [has_iff_getD, has_iff_getD, Function.update_of_ne here]
      simp [here]

theorem Tidy.update (tidy : map.Tidy) {after : Option (List (Nat × Value))}
    (good : ∀ entries, after = some entries → entries ≠ [] ∧ (entries.map Prod.fst).Nodup) :
    Nested.Tidy (Function.update map topic after) := by
  intro wanted entries found
  by_cases here : wanted = topic
  · subst here
    rw [Function.update_self] at found
    exact good entries found
  · rw [Function.update_of_ne here] at found
    exact tidy wanted entries found

theorem Tidy.insert (tidy : map.Tidy) : (map.insert topic id value).Tidy := by
  refine tidy.update fun entries found => ?_
  obtain rfl := Option.some.inj found
  refine ⟨by simp, ?_⟩
  have before : (((map topic).getD []).map Prod.fst).Nodup := by
    cases old : map topic with
    | none => exact List.nodup_nil
    | some entries => exact (tidy topic entries old).2
  rw [List.map_append, List.nodup_append']
  refine ⟨before.sublist (List.filter_sublist.map _), List.nodup_singleton _, ?_⟩
  intro key member
  obtain ⟨entry, among, rfl⟩ := List.mem_map.mp member
  simpa using (List.mem_filter.mp among).2

theorem Tidy.remove (tidy : map.Tidy) : (map.remove topic id).Tidy := by
  unfold Nested.remove
  split
  · exact tidy
  · rename_i old before
    refine tidy.update fun entries found => ?_
    split_ifs at found with empty
    obtain rfl := Option.some.inj found
    exact ⟨by simpa [List.isEmpty_iff] using empty,
      (tidy topic old before).2.sublist (List.filter_sublist.map _)⟩

end Nested

end Lspd.Store
