import Mathlib.Data.Nat.Digits.Lemmas

/-! Numbers on the wire: big-endian bytes of a fixed width or without leading zeros, and
numbers that say their own width, of which only the shortest form is read. -/

namespace Lspd.Codec

section bigEndian

def ofBigEndian (bytes : List UInt8) : Nat := Nat.ofDigits 256 (bytes.reverse.map UInt8.toNat)

/-- The bytes of a number, with leading zeros up to a width. -/
def toBigEndian (size value : Nat) : List UInt8 :=
  ((Nat.digitsAppend 256 size value).map UInt8.ofNat).reverse

variable {size value : Nat} {bytes : List UInt8}

theorem length_toBigEndian (fits : value < 256 ^ size) :
    (toBigEndian size value).length = size := by
  simp [toBigEndian, Nat.length_digitsAppend (by decide) size fits]

@[simp] theorem ofBigEndian_toBigEndian (size value : Nat) :
    ofBigEndian (toBigEndian size value) = value := by
  have digit : ∀ digit ∈ Nat.digitsAppend 256 size value, (UInt8.ofNat digit).toNat = digit :=
    fun digit member => UInt8.toNat_ofNat_of_lt (Nat.lt_of_mem_digitsAppend (by decide) _ _ member)
  have digits : ((Nat.digitsAppend 256 size value).map UInt8.ofNat).map UInt8.toNat =
      Nat.digitsAppend 256 size value := by
    rw [List.map_map]
    exact (List.map_congr_left digit).trans (List.map_id' _)
  rw [ofBigEndian, toBigEndian, List.reverse_reverse, digits, Nat.digitsAppend,
    Nat.ofDigits_append_replicate_zero, Nat.ofDigits_digits]

theorem digit_lt (bytes : List UInt8) : ∀ digit ∈ bytes.reverse.map UInt8.toNat, digit < 256 := by
  intro digit member
  obtain ⟨byte, _, rfl⟩ := List.mem_map.mp member
  exact byte.toNat_lt

theorem ofBigEndian_lt (bytes : List UInt8) : ofBigEndian bytes < 256 ^ bytes.length := by
  have bound := Nat.ofDigits_lt_base_pow_length (by decide) (digit_lt bytes)
  rwa [List.length_map, List.length_reverse] at bound

@[simp] theorem toBigEndian_ofBigEndian (bytes : List UInt8) :
    toBigEndian bytes.length (ofBigEndian bytes) = bytes := by
  have digits : Nat.digitsAppend 256 bytes.length (ofBigEndian bytes) =
      bytes.reverse.map UInt8.toNat :=
    (Nat.setInvOn_digitsAppend_ofDigits (by decide) bytes.length).1 ⟨by simp, digit_lt bytes⟩
  simp [toBigEndian, digits, Function.comp_def]

/-- Without a width there is no leading zero. -/
theorem head?_toBigEndian_zero (value : Nat) : (toBigEndian 0 value).head? ≠ some 0 := by
  intro zero
  rw [toBigEndian, List.head?_reverse, List.getLast?_map, Nat.digitsAppend, Nat.zero_sub,
    List.replicate_zero, List.append_nil] at zero
  obtain ⟨digit, last, zero⟩ := Option.map_eq_some_iff.mp zero
  have bound : digit < 256 := Nat.digits_lt_base (by decide) (List.mem_of_getLast? last)
  have digitZero : digit = 0 := by
    rw [← UInt8.toNat_ofNat_of_lt' bound, zero]
    rfl
  have positive : value ≠ 0 := by
    rintro rfl
    simp at last
  exact Nat.getLast_digit_ne_zero 256 positive
    ((List.getLast_eq_iff_getLast?_eq_some _).mpr (digitZero ▸ last))

theorem length_toBigEndian_zero (fits : value < 256 ^ size) :
    (toBigEndian 0 value).length ≤ size := by
  simpa [toBigEndian, Nat.digitsAppend] using (Nat.digits_length_le_iff (by decide) value).mpr fits

end bigEndian

section bigSize

/-- A number of a fixed width, which is refused if a shorter form would do. -/
def readFixed (size least : Nat) (bytes : List UInt8) : Option (UInt64 × List UInt8) :=
  if size ≤ bytes.length ∧ least ≤ ofBigEndian (bytes.take size) then
    some (.ofNat (ofBigEndian (bytes.take size)), bytes.drop size)
  else none

def readBigSize : List UInt8 → Option (UInt64 × List UInt8)
  | [] => none
  | first :: rest =>
    if first = 0xfd then readFixed 2 0xfd rest
    else if first = 0xfe then readFixed 4 0x10000 rest
    else if first = 0xff then readFixed 8 0x100000000 rest
    else some (first.toUInt64, rest)

def writeBigSize (number : UInt64) : List UInt8 :=
  if number.toNat < 0xfd then [number.toUInt8]
  else if number.toNat < 0x10000 then 0xfd :: toBigEndian 2 number.toNat
  else if number.toNat < 0x100000000 then 0xfe :: toBigEndian 4 number.toNat
  else 0xff :: toBigEndian 8 number.toNat

variable {size least : Nat} {bytes rest : List UInt8} {number : UInt64}

theorem readFixed_eq_some (narrow : size ≤ 8) :
    readFixed size least bytes = some (number, rest) ↔
      least ≤ number.toNat ∧ number.toNat < 256 ^ size ∧
        bytes = toBigEndian size number.toNat ++ rest := by
  constructor
  · intro read
    unfold readFixed at read
    split_ifs at read with enough
    obtain ⟨rfl, rfl⟩ := Prod.mk.inj (Option.some.inj read)
    have length : (bytes.take size).length = size := by simp [enough.1]
    have bound : ofBigEndian (bytes.take size) < 256 ^ size := by
      simpa [length] using ofBigEndian_lt (bytes.take size)
    have wide : ofBigEndian (bytes.take size) < UInt64.size :=
      bound.trans_le (Nat.pow_le_pow_right (by decide) narrow)
    rw [UInt64.toNat_ofNat_of_lt' wide]
    refine ⟨enough.2, bound, ?_⟩
    have front := toBigEndian_ofBigEndian (bytes.take size)
    rw [length] at front
    rw [front, List.take_append_drop]
  · rintro ⟨atLeast, bound, rfl⟩
    have length := length_toBigEndian bound
    have front : (toBigEndian size number.toNat ++ rest).take size = toBigEndian size number.toNat :=
      List.take_left' length
    have back : (toBigEndian size number.toNat ++ rest).drop size = rest := List.drop_left' length
    simp [readFixed, front, back, length, atLeast]

/-- What is read is what is written. -/
theorem readBigSize_eq_some :
    readBigSize bytes = some (number, rest) ↔ bytes = writeBigSize number ++ rest := by
  constructor
  · intro read
    cases bytes with
    | nil => cases read
    | cons first tail =>
      dsimp only [readBigSize] at read
      split_ifs at read with two four eight
      · obtain ⟨atLeast, bound, rfl⟩ := (readFixed_eq_some (by decide)).mp read
        rw [writeBigSize, if_neg (by omega), if_pos (by omega), two, List.cons_append]
      · obtain ⟨atLeast, bound, rfl⟩ := (readFixed_eq_some (by decide)).mp read
        rw [writeBigSize, if_neg (by omega), if_neg (by omega), if_pos (by omega), four,
          List.cons_append]
      · obtain ⟨atLeast, bound, rfl⟩ := (readFixed_eq_some (by decide)).mp read
        rw [writeBigSize, if_neg (by omega), if_neg (by omega), if_neg (by omega), eight,
          List.cons_append]
      · obtain ⟨rfl, rfl⟩ := Prod.mk.inj (Option.some.inj read)
        have short : first.toUInt64.toNat < 0xfd := by
          have bound := first.toNat_lt
          simp only [← UInt8.toNat_inj, UInt8.reduceToNat] at two four eight
          rw [UInt8.toNat_toUInt64]
          omega
        rw [writeBigSize, if_pos short, UInt8.toUInt8_toUInt64]
        rfl
  · rintro rfl
    have bound := number.toNat_lt
    unfold writeBigSize
    split_ifs with one two four
    · have same : number.toUInt8.toNat = number.toNat := by
        rw [UInt64.toNat_toUInt8]
        omega
      have unmarked (marker : UInt8) (high : 0xfd ≤ marker.toNat) : number.toUInt8 ≠ marker := by
        rintro rfl
        omega
      have whole : number.toUInt8.toUInt64 = number := by
        rw [← UInt64.toNat_inj, UInt8.toNat_toUInt64, same]
      rw [List.singleton_append, readBigSize, if_neg (unmarked _ (by decide)),
        if_neg (unmarked _ (by decide)), if_neg (unmarked _ (by decide)), whole]
    · rw [List.cons_append, readBigSize, if_pos rfl]
      exact (readFixed_eq_some (by decide)).mpr ⟨by omega, by omega, rfl⟩
    · rw [List.cons_append, readBigSize, if_neg (by decide), if_pos rfl]
      exact (readFixed_eq_some (by decide)).mpr ⟨by omega, by omega, rfl⟩
    · rw [List.cons_append, readBigSize, if_neg (by decide), if_neg (by decide), if_pos rfl]
      exact (readFixed_eq_some (by decide)).mpr ⟨by omega, by omega, rfl⟩

@[simp] theorem readBigSize_writeBigSize (number : UInt64) (rest : List UInt8) :
    readBigSize (writeBigSize number ++ rest) = some (number, rest) :=
  readBigSize_eq_some.mpr rfl

theorem writeBigSize_ne_nil (number : UInt64) : writeBigSize number ≠ [] := by
  unfold writeBigSize
  split_ifs <;> exact List.cons_ne_nil _ _

end bigSize

end Lspd.Codec
