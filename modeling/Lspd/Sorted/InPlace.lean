import Mathlib.Data.List.Nodup
import Mathlib.Logic.Function.Basic
import Lspd.Sorted.Matching

/-! The same walk when the first list points to its entries and they are changed in place.
Other lists may point to them too. -/

namespace Lspd.Sorted

variable {Index Left Right View : Type} [DecidableEq Index] (move : Left → Right → Move)
  (join : Left → Right → Left × Right)

/-- The entries after the walk, and the second list. -/
def walkAt (entries : Index → Left) : List Index → List Right → (Index → Left) × List Right
  | [], rights => (entries, rights)
  | _ :: _, [] => (entries, [])
  | index :: indices, right :: rights =>
    match move (entries index) right with
    | .left => walkAt entries indices (right :: rights)
    | .right =>
      let rest := walkAt entries (index :: indices) rights
      (rest.1, right :: rest.2)
    | .both =>
      let joined := join (entries index) right
      let rest := walkAt (Function.update entries index joined.1) indices rights
      (rest.1, joined.2 :: rest.2)
termination_by indices rights => indices.length + rights.length

variable {move join} {indices : List Index} {index : Index}

theorem walkAt_of_not_mem (entries : Index → Left) (rights : List Right)
    (other : index ∉ indices) : (walkAt move join entries indices rights).1 index = entries index := by
  fun_induction walkAt move join entries indices rights with
  | case1 => rfl
  | case2 => rfl
  | case3 entries first indices right rights here ih => exact ih (List.not_mem_of_not_mem_cons other)
  | case4 entries first indices right rights here rest ih => exact ih other
  | case5 entries first indices right rights here joined rest ih =>
    have different : index ≠ first := List.ne_of_not_mem_cons other
    exact (ih (List.not_mem_of_not_mem_cons other)).trans (Function.update_of_ne different _ _)

/-- What the pointers of the list lead to is then what the walk over a list of entries
leaves. -/
theorem walkAt_eq_walk (entries : Index → Left) (rights : List Right) (distinct : indices.Nodup) :
    (indices.map (walkAt move join entries indices rights).1,
      (walkAt move join entries indices rights).2) =
      walk move join (indices.map entries) rights := by
  fun_induction walkAt move join entries indices rights with
  | case1 entries rights => simp [walk]
  | case2 entries index indices => simp [walk]
  | case3 entries index indices right rights here ih =>
    obtain ⟨new, distinct⟩ := List.nodup_cons.mp distinct
    have same : (walkAt move join entries indices (right :: rights)).1 index = entries index :=
      walkAt_of_not_mem entries (right :: rights) new
    rw [List.map_cons, List.map_cons, walk, here, ← ih distinct, same]
  | case4 entries index indices right rights here rest ih =>
    have walked := ih distinct
    rw [List.map_cons, List.map_cons] at walked ⊢
    rw [walk, here, ← walked]
  | case5 entries index indices right rights here joined rest ih =>
    obtain ⟨new, distinct⟩ := List.nodup_cons.mp distinct
    have same : rest.1 index = joined.1 :=
      (walkAt_of_not_mem _ rights new).trans (Function.update_self ..)
    have others : indices.map (Function.update entries index joined.1) = indices.map entries := by
      refine List.map_congr_left fun other member => Function.update_of_ne ?_ _ _
      exact fun equal => new (equal ▸ member)
    have walked := ih distinct
    rw [others] at walked
    rw [List.map_cons, List.map_cons, walk, here, ← walked, same]

variable (move join) in
/-- Each entry is left alone, or it is joined once. -/
theorem walkAt_entry (entries : Index → Left) (rights : List Right) (distinct : indices.Nodup)
    (index : Index) :
    (walkAt move join entries indices rights).1 index = entries index ∨
      ∃ right ∈ rights, move (entries index) right = .both ∧
        (walkAt move join entries indices rights).1 index = (join (entries index) right).1 := by
  by_cases member : index ∈ indices
  · obtain ⟨position, bound, rfl⟩ := List.getElem_of_mem member
    obtain ⟨pairs, matching⟩ := @exists_matching _ _ move join (indices.map entries) rights
    rw [← walkAt_eq_walk entries rights distinct] at matching
    by_cases paired : position ∈ pairs.map Prod.fst
    · obtain ⟨pair, among, rfl⟩ := List.mem_map.mp paired
      obtain ⟨left, right, atLeft, atRight, both, after, _⟩ := matching.joined pair among
      obtain rfl : entries indices[pair.1] = left := by simpa [bound] using atLeft
      refine .inr ⟨right, List.mem_of_getElem? atRight, both, ?_⟩
      simpa [bound] using after
    · exact .inl (by simpa [bound] using matching.lefts position paired)
  · exact .inl (walkAt_of_not_mem entries rights member)

/-- What joining does not change of an entry of the second list stays. -/
theorem map_walkAt_snd (view : Right → View) (kept : ∀ left right, view (join left right).2 = view right)
    (entries : Index → Left) (indices : List Index) (rights : List Right) :
    (walkAt move join entries indices rights).2.map view = rights.map view := by
  fun_induction walkAt move join entries indices rights with
  | case1 => rfl
  | case2 => rfl
  | case3 entries index indices right rights here ih => exact ih
  | case4 entries index indices right rights here rest ih =>
    rw [List.map_cons, List.map_cons, ih]
  | case5 entries index indices right rights here joined rest ih =>
    rw [List.map_cons, List.map_cons, ih, kept]

end Lspd.Sorted
