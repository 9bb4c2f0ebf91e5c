import Lspd.Codec.JsonString
import Lspd.Common.Strconv

/-! Byte strings, their hex form and funding outpoints. -/

namespace Lspd.Lightning

open Lspd.Codec (hexDigit hexDigit_digitChar)
open Lspd.Common

abbrev Bytes := List UInt8

/-- As many bytes of a number as asked for, the most significant one first. -/
def bigEndian : Nat → Nat → Bytes
  | 0, _ => []
  | size + 1, value => .ofNat (value >>> (8 * size)) :: bigEndian size value

private def hexPair (byte : UInt8) : List Char :=
  [Nat.digitChar (byte.toNat / 16), Nat.digitChar (byte.toNat % 16)]

/-- Go's `hex.EncodeToString`. -/
def encodeToString (bytes : Bytes) : String :=
  String.ofList (bytes.flatMap hexPair)

private def decodeChars : List Char → Option Bytes
  | [] => some []
  | [_] => none
  | high :: low :: rest =>
    match hexDigit high, hexDigit low, decodeChars rest with
    | some high, some low, some bytes => some (.ofNat (high * 16 + low) :: bytes)
    | _, _, _ => none

/-- Go's `hex.DecodeString`; `none` is an error. -/
def decodeString (text : String) : Option Bytes := decodeChars text.toList

theorem decodeString_encodeToString (bytes : Bytes) :
    decodeString (encodeToString bytes) = some bytes := by
  rw [decodeString, encodeToString, String.toList_ofList]
  induction bytes with
  | nil => rfl
  | cons byte rest ih =>
    have bound := byte.toNat_lt
    have whole : UInt8.ofNat (byte.toNat / 16 * 16 + byte.toNat % 16) = byte := by
      rw [Nat.div_add_mod']
      exact UInt8.ofNat_toNat
    rw [List.flatMap_cons]
    simp only [hexPair, List.cons_append, List.nil_append, decodeChars, ih,
      hexDigit_digitChar _ (show byte.toNat / 16 < 16 by omega),
      hexDigit_digitChar _ (show byte.toNat % 16 < 16 by omega), whole]

theorem encodeToString_inj {one two : Bytes} (same : encodeToString one = encodeToString two) :
    one = two := by
  have bytes := congrArg decodeString same
  rw [decodeString_encodeToString, decodeString_encodeToString] at bytes
  exact Option.some.inj bytes

private theorem digitChar_ne_colon : ∀ value < 16, Nat.digitChar value ≠ ':' := by decide

theorem ne_colon_of_mem_encodeToString {bytes : Bytes} {char : Char}
    (member : char ∈ (encodeToString bytes).toList) : char ≠ ':' := by
  rw [encodeToString, String.toList_ofList] at member
  obtain ⟨byte, _, digit⟩ := List.mem_flatMap.mp member
  have bound := byte.toNat_lt
  rcases List.mem_pair.mp digit with rfl | rfl
  · exact digitChar_ne_colon _ (by omega)
  · exact digitChar_ne_colon _ (by omega)

/-- The 32 bytes of a transaction id, in the order `chainhash.Hash` keeps them. -/
abbrev Hash := { bytes : Bytes // bytes.length = 32 }

/-- `wire.OutPoint`. -/
structure OutPoint where
  hash : Hash
  index : UInt32
  deriving DecidableEq

/-- `NewOutPoint`: an id that is not 32 bytes long is refused. -/
def newOutPoint (fundingTxID : Bytes) (index : UInt32) : Option OutPoint :=
  if length : fundingTxID.length = 32 then some ⟨⟨fundingTxID, length⟩, index⟩ else none

/-- `strconv.ParseUint(text, 10, 32)`. -/
def parseUint32 (chars : List Char) : Option UInt32 :=
  if chars ≠ [] ∧ chars.all Char.isDigit then
    let value := Nat.ofDigitChars 10 chars 0
    if value < 4294967296 then some (.ofNat value) else none
  else none

/-- `NewOutPointFromString`. The bytes of the id are taken in the order of the text. -/
def newOutPointFromString (outpoint : String) : Option OutPoint :=
  match outpoint.toList.splitOn ':' with
  | [txid, outnum] =>
    match decodeString (String.ofList txid), parseUint32 outnum with
    | some fundingTxId, some outnum => newOutPoint fundingTxId outnum
    | _, _ => none
  | _ => none

@[simp] theorem newOutPoint_hash (outPoint : OutPoint) (index : UInt32) :
    newOutPoint outPoint.hash.1 index = some ⟨outPoint.hash, index⟩ := by
  simp [newOutPoint, outPoint.hash.2]

/-- `wire.OutPoint.String`; `Hash.String` shows the bytes of the id in reverse. -/
def OutPoint.string (outPoint : OutPoint) : String :=
  encodeToString outPoint.hash.1.reverse ++ ":" ++ formatUint outPoint.index.toUInt64

/-- The outpoint with the bytes of its id in the other order. -/
def OutPoint.reversed (outPoint : OutPoint) : OutPoint :=
  ⟨⟨outPoint.hash.1.reverse, by rw [List.length_reverse, outPoint.hash.2]⟩, outPoint.index⟩

theorem parseUint32_formatUint (value : UInt32) :
    parseUint32 (formatUint value.toUInt64).toList = some value := by
  have bound := value.toNat_lt
  have digits : (formatUint value.toUInt64).toList = Nat.toDigits 10 value.toNat := by
    rw [formatUint, Nat.toList_repr, UInt32.toNat_toUInt64]
  have decimal : (Nat.toDigits 10 value.toNat).all Char.isDigit := by
    rw [List.all_eq_true]
    intro char member
    exact Nat.isDigit_of_mem_toDigits (by decide) (by decide) member
  rw [digits, parseUint32, if_pos ⟨Nat.toDigits_ne_nil, decimal⟩, Nat.ofDigitChars_ten_toDigits,
    if_pos bound, UInt32.ofNat_toNat]

/-- What is read from the text of an outpoint has the id in the order of the text. -/
theorem newOutPointFromString_string (outPoint : OutPoint) :
    newOutPointFromString outPoint.string = some outPoint.reversed := by
  have split : outPoint.string.toList.splitOn ':' =
      [(encodeToString outPoint.hash.1.reverse).toList,
        (formatUint outPoint.index.toUInt64).toList] := by
    have txid : ∀ char ∈ (encodeToString outPoint.hash.1.reverse).toList,
        (char == ':') = false := by
      intro char member
      simpa using ne_colon_of_mem_encodeToString member
    have outnum : ∀ char ∈ (formatUint outPoint.index.toUInt64).toList,
        (char == ':') = false := by
      intro char member
      have digit := isDigit_of_mem_formatUint member
      rw [beq_eq_false_iff_ne]
      rintro rfl
      exact absurd digit (by decide)
    rw [OutPoint.string, String.toList_append, String.toList_append, List.append_assoc]
    change List.splitOnP _ (_ ++ ':' :: (formatUint outPoint.index.toUInt64).toList) = _
    rw [List.splitOnP_append_cons_of_forall_mem txid ':' rfl, List.splitOnP_eq_singleton outnum]
  rw [newOutPointFromString, split]
  simp only [String.ofList_toList, decodeString_encodeToString, parseUint32_formatUint]
  exact newOutPoint_hash outPoint.reversed outPoint.index

theorem OutPoint.string_injective : Function.Injective OutPoint.string := by
  intro one two same
  have read := congrArg newOutPointFromString same
  rw [newOutPointFromString_string, newOutPointFromString_string, Option.some.injEq,
    OutPoint.reversed, OutPoint.reversed, OutPoint.mk.injEq, Subtype.mk.injEq,
    List.reverse_inj] at read
  obtain ⟨⟨hash, _⟩, index⟩ := one
  obtain ⟨⟨other, _⟩, _⟩ := two
  obtain ⟨rfl, rfl⟩ := read
  rfl

end Lspd.Lightning
