import Mathlib.Data.List.Basic

/-! Decimal texts of numbers. -/

namespace Lspd.Common

/-- `strconv.FormatUint(value, 10)`. -/
def formatUint (value : UInt64) : String := Nat.repr value.toNat

theorem formatUint_inj {one two : UInt64} (same : formatUint one = formatUint two) : one = two := by
  have digits := congrArg (fun text => Nat.ofDigitChars 10 text.toList 0) same
  simp only [formatUint, Nat.toList_repr, Nat.ofDigitChars_ten_toDigits] at digits
  exact UInt64.toNat_inj.mp digits

theorem isDigit_of_mem_formatUint {value : UInt64} {char : Char}
    (member : char ∈ (formatUint value).toList) : char.isDigit := by
  rw [formatUint, Nat.toList_repr] at member
  exact Nat.isDigit_of_mem_toDigits (by decide) (by decide) member

/-- A number in front of a separator can be read back. -/
theorem formatUint_append_inj {one two : UInt64} {separator : Char} {rest tail : List Char}
    (other : separator.isDigit = false)
    (same : (formatUint one).toList ++ separator :: rest =
      (formatUint two).toList ++ separator :: tail) : one = two := by
  have read (value : UInt64) (after : List Char) :
      ((formatUint value).toList ++ separator :: after).takeWhile Char.isDigit =
        (formatUint value).toList := by
    rw [List.takeWhile_append_of_pos fun char member => isDigit_of_mem_formatUint member,
      List.takeWhile_cons_of_neg (by simp [other]), List.append_nil]
  have digits := congrArg (List.takeWhile Char.isDigit) same
  rw [read, read] at digits
  exact formatUint_inj (String.toList_injective digits)

end Lspd.Common
