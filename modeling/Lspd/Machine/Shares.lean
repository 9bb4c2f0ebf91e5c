import Mathlib.Algebra.BigOperators.Group.List.Basic
import Mathlib.Algebra.Order.BigOperators.Group.List
import Mathlib.Algebra.Ring.Int.Defs
import Mathlib.Data.Int.Basic

/-! A total that is handed out in proportion to parts, each share rounded down
on its own. -/

namespace Lspd.Machine

/-- The share of a part when `whole` is spread in proportion over `divisor`. -/
def share (whole divisor part : Int) : Int := whole * part / divisor

/-- What rounding cuts off a share, in units of `1 / divisor`. -/
def rest (whole divisor part : Int) : Int := whole * part % divisor

section shares

variable {whole divisor : Int} {parts : List Int}

/-- Shares and rests together make up the whole. -/
theorem sum_shares (whole divisor : Int) (parts : List Int) :
    divisor * (parts.map (share whole divisor)).sum + (parts.map (rest whole divisor)).sum =
      whole * parts.sum := by
  induction parts with
  | nil => simp
  | cons part parts ih =>
    have division := Int.mul_ediv_add_emod (whole * part) divisor
    simp only [List.map_cons, List.sum_cons, Int.mul_add, ← ih]
    unfold share rest
    omega

theorem sum_rests_nonneg (positive : 0 < divisor) : 0 ≤ (parts.map (rest whole divisor)).sum := by
  apply List.sum_nonneg
  intro value member
  obtain ⟨part, _, rfl⟩ := List.mem_map.mp member
  exact Int.emod_nonneg _ (Int.ne_of_gt positive)

/-- Rounding each share down never hands out more than rounding once. -/
theorem sum_shares_le (positive : 0 < divisor) :
    (parts.map (share whole divisor)).sum ≤ share whole divisor parts.sum := by
  apply Int.le_ediv_of_mul_le positive
  have total := sum_shares whole divisor parts
  have nonneg : 0 ≤ (parts.map (rest whole divisor)).sum := sum_rests_nonneg positive
  rw [Int.mul_comm]
  omega

/-- Nothing is lost to rounding exactly when every share is whole. -/
theorem sum_rests_eq_zero_iff (positive : 0 < divisor) :
    (parts.map (rest whole divisor)).sum = 0 ↔ ∀ part ∈ parts, divisor ∣ whole * part := by
  induction parts with
  | nil => simp
  | cons part parts ih =>
    have first : 0 ≤ rest whole divisor part := Int.emod_nonneg _ (Int.ne_of_gt positive)
    have others : 0 ≤ (parts.map (rest whole divisor)).sum := sum_rests_nonneg positive
    rw [List.forall_mem_cons, ← ih, Int.dvd_iff_emod_eq_zero, List.map_cons, List.sum_cons]
    constructor
    · intro none
      exact ⟨by unfold rest at *; omega, by omega⟩
    · rintro ⟨none, nothing⟩
      unfold rest at *
      omega

theorem sum_shares_eq_iff (positive : 0 < divisor) :
    divisor * (parts.map (share whole divisor)).sum = whole * parts.sum ↔
      ∀ part ∈ parts, divisor ∣ whole * part := by
  rw [← sum_rests_eq_zero_iff positive, ← sum_shares whole divisor parts]
  omega

end shares

end Lspd.Machine
