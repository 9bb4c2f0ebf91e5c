import Mathlib.Algebra.Group.Int.Defs
import Mathlib.Algebra.Group.Nat.Defs
import Mathlib.Data.List.Basic

/-! Short channel ids and the text form `NewShortChannelIDFromString` reads. -/

namespace Lspd.Lightning

/-- `type ShortChannelID uint64`. -/
abbrev ShortChannelID := UInt64

namespace ShortChannelID

/-- `lnwire.ShortChannelID.ToUint64`. -/
def toUint64 (blockHeight txIndex : UInt32) (txPosition : UInt16) : UInt64 :=
  blockHeight.toUInt64 <<< 40 ||| txIndex.toUInt64 <<< 16 ||| txPosition.toUInt64

end ShortChannelID

private def digitsValue (chars : List Char) : Option Nat :=
  if chars ≠ [] ∧ chars.all Char.isDigit then
    some (chars.foldl (fun value char => value * 10 + (char.toNat - '0'.toNat)) 0)
  else none

/-- `strconv.ParseInt(s, 10, 64)`: an optional sign, then decimal digits only,
with a value that fits an `int64`. -/
def parseInt (chars : List Char) : Option Int :=
  match chars with
  | '-' :: digits => (digitsValue digits).bind fun value =>
      if value ≤ 2 ^ 63 then some (-(value : Int)) else none
  | '+' :: digits => (digitsValue digits).bind fun value =>
      if value < 2 ^ 63 then some (value : Int) else none
  | digits => (digitsValue digits).bind fun value =>
      if value < 2 ^ 63 then some (value : Int) else none

/-- `NewShortChannelIDFromString`. The components are cut to their field width
only after parsing, as the conversions in the source do. -/
def newShortChannelIDFromString (channelID : String) : Except String ShortChannelID :=
  if channelID = "" then .ok 0
  else match channelID.toList.splitOn 'x' with
    | [first, second, third] =>
      match parseInt first with
      | none => .error s!"failed to parse block height {String.ofList first}"
      | some blockHeight =>
        match parseInt second with
        | none => .error s!"failed to parse block height {String.ofList second}"
        | some txIndex =>
          match parseInt third with
          | none => .error s!"failed to parse block height {String.ofList third}"
          | some txPos => .ok (ShortChannelID.toUint64 (UInt32.ofInt blockHeight)
              (UInt32.ofInt txIndex) (UInt16.ofInt txPos))
    | _ => .error s!"invalid short channel id {channelID}"

/-- `ShortChannelID.ToString` of a present id. -/
def ShortChannelID.toString (id : ShortChannelID) : String :=
  let blockHeight := (id >>> 40) &&& 0xFFFFFF
  let txIndex := (id >>> 16) &&& 0xFFFFFF
  let outputIndex := id &&& 0xFFFF
  s!"{blockHeight.toNat}x{txIndex.toNat}x{outputIndex.toNat}"

example : newShortChannelIDFromString "700000x2x1" = .ok (700000 * 2 ^ 40 + 2 * 2 ^ 16 + 1) := by
  decide

section fields

namespace ShortChannelID

/-- Components within the 24, 24 and 16 bits of the encoding do not run into each other. -/
theorem toNat_toUint64 {blockHeight txIndex : UInt32} (txPosition : UInt16)
    (height : blockHeight.toNat < 2 ^ 24) (index : txIndex.toNat < 2 ^ 24) :
    (toUint64 blockHeight txIndex txPosition).toNat =
      blockHeight.toNat * 2 ^ 40 + txIndex.toNat * 2 ^ 16 + txPosition.toNat := by
  have position := txPosition.toNat_lt
  have low : txIndex.toNat <<< 16 + txPosition.toNat < 2 ^ 40 := by
    rw [Nat.shiftLeft_eq]
    omega
  have heightBits : (blockHeight.toUInt64 <<< 40).toNat = blockHeight.toNat <<< 40 := by
    rw [UInt64.toNat_shiftLeft, UInt32.toNat_toUInt64]
    change blockHeight.toNat <<< 40 % 2 ^ 64 = _
    rw [Nat.shiftLeft_eq]
    exact Nat.mod_eq_of_lt (by omega)
  have indexBits : (txIndex.toUInt64 <<< 16).toNat = txIndex.toNat <<< 16 := by
    rw [UInt64.toNat_shiftLeft, UInt32.toNat_toUInt64]
    change txIndex.toNat <<< 16 % 2 ^ 64 = _
    rw [Nat.shiftLeft_eq]
    exact Nat.mod_eq_of_lt (by omega)
  rw [toUint64, UInt64.toNat_or, UInt64.toNat_or, heightBits, indexBits, UInt16.toNat_toUInt64,
    Nat.or_assoc, ← Nat.shiftLeft_add_eq_or_of_lt position, ← Nat.shiftLeft_add_eq_or_of_lt low,
    Nat.shiftLeft_eq, Nat.shiftLeft_eq]
  omega

/-- The masks cut an id into its three components. -/
theorem toString_eq (id : ShortChannelID) :
    id.toString = s!"{id.toNat / 2 ^ 40}x{id.toNat / 2 ^ 16 % 2 ^ 24}x{id.toNat % 2 ^ 16}" := by
  have size := id.toNat_lt
  have height : ((id >>> 40) &&& 0xFFFFFF).toNat = id.toNat / 2 ^ 40 := by
    rw [UInt64.toNat_and, UInt64.toNat_shiftRight]
    change id.toNat >>> 40 &&& 2 ^ 24 - 1 = _
    rw [Nat.and_two_pow_sub_one_eq_mod, Nat.shiftRight_eq_div_pow]
    omega
  have index : ((id >>> 16) &&& 0xFFFFFF).toNat = id.toNat / 2 ^ 16 % 2 ^ 24 := by
    rw [UInt64.toNat_and, UInt64.toNat_shiftRight]
    change id.toNat >>> 16 &&& 2 ^ 24 - 1 = _
    rw [Nat.and_two_pow_sub_one_eq_mod, Nat.shiftRight_eq_div_pow]
  have output : (id &&& 0xFFFF).toNat = id.toNat % 2 ^ 16 := by
    rw [UInt64.toNat_and]
    exact Nat.and_two_pow_sub_one_eq_mod id.toNat 16
  simp only [ShortChannelID.toString, height, index, output]

end ShortChannelID

end fields

section numbers

/-- Digits hold no separator. -/
theorem split_digits {first second third : List Char} (one : first.all Char.isDigit)
    (two : second.all Char.isDigit) (three : third.all Char.isDigit) :
    (first ++ 'x' :: (second ++ 'x' :: third)).splitOn 'x' = [first, second, third] := by
  have joined : first ++ 'x' :: (second ++ 'x' :: third) =
      ['x'].intercalate [first, second, third] := by simp [List.intercalate]
  have clean {chars : List Char} (digits : chars.all Char.isDigit) : 'x' ∉ chars := by
    intro member
    exact absurd (List.all_eq_true.mp digits 'x' member) (by decide)
  rw [joined]
  refine List.splitOn_intercalate 'x' ?_ (List.cons_ne_nil _ _)
  simp only [List.forall_mem_cons]
  exact ⟨clean one, clean two, clean three, List.forall_mem_nil _⟩

theorem all_isDigit_toDigits (value : Nat) : (Nat.toDigits 10 value).all Char.isDigit = true := by
  rw [List.all_eq_true]
  intro char member
  exact Nat.isDigit_of_mem_toDigits (by decide) (by decide) member

theorem toList_numbers (one two three : Nat) :
    s!"{one}x{two}x{three}".toList = Nat.toDigits 10 one ++
      'x' :: (Nat.toDigits 10 two ++ 'x' :: Nat.toDigits 10 three) := by
  have separator : (ToString.toString "x").toList = ['x'] := rfl
  simp [separator]

theorem digitsValue_toDigits (value : Nat) : digitsValue (Nat.toDigits 10 value) = some value := by
  have read : (Nat.toDigits 10 value).foldl
      (fun value char => value * 10 + (char.toNat - '0'.toNat)) 0 = value := by
    simpa only [Nat.ofDigitChars, Nat.mul_comm 10] using
      @Nat.ofDigitChars_ten_toDigits value
  rw [digitsValue, if_pos ⟨Nat.toDigits_ne_nil, all_isDigit_toDigits value⟩, read]

/-- A text of digits has no sign. -/
theorem parseInt_of_digits {chars : List Char} (digits : chars.all Char.isDigit) :
    parseInt chars = (digitsValue chars).bind fun value =>
      if value < 2 ^ 63 then some (value : Int) else none := by
  unfold parseInt
  split
  · simp [show '-'.isDigit = false from rfl] at digits
  · simp [show '+'.isDigit = false from rfl] at digits
  · rfl

theorem parseInt_toDigits {value : Nat} (size : value < 2 ^ 63) :
    parseInt (Nat.toDigits 10 value) = some (value : Int) := by
  rw [parseInt_of_digits (all_isDigit_toDigits value), digitsValue_toDigits]
  exact if_pos size

theorem natural_of_digits {chars : List Char} {value : Int} (digits : chars.all Char.isDigit)
    (read : parseInt chars = some value) : ∃ number : Nat, value = number := by
  rw [parseInt_of_digits digits] at read
  obtain ⟨number, _, fits⟩ := Option.bind_eq_some_iff.mp read
  split at fits
  · exact ⟨number, (Option.some.inj fits).symm⟩
  · cases fits

theorem toNat_ofInt {value : Nat} (size : value < 2 ^ 32) :
    (UInt32.ofInt (value : Int)).toNat = value := by
  simp only [UInt32.ofInt, UInt32.toNat_ofNat']
  omega

theorem toNat_ofInt16 {value : Nat} (size : value < 2 ^ 16) :
    (UInt16.ofInt (value : Int)).toNat = value := by
  simp only [UInt16.ofInt, UInt16.toNat_ofNat']
  omega

/-- The id of three numbers that fit their fields. -/
theorem toNat_packed {one two three : Nat} (first : one < 2 ^ 24) (second : two < 2 ^ 24)
    (third : three < 2 ^ 16) :
    (ShortChannelID.toUint64 (UInt32.ofInt one) (UInt32.ofInt two) (UInt16.ofInt three)).toNat =
      one * 2 ^ 40 + two * 2 ^ 16 + three := by
  have height : (UInt32.ofInt (one : Int)).toNat = one := toNat_ofInt (by omega)
  have index : (UInt32.ofInt (two : Int)).toNat = two := toNat_ofInt (by omega)
  rw [ShortChannelID.toNat_toUint64 _ (height.symm ▸ first) (index.symm ▸ second), height, index,
    toNat_ofInt16 third]

end numbers

section reading

/-- The three numbers a text names, as `ParseInt` reads them. -/
def namedNumbers (channelID : String) : Option (Int × Int × Int) :=
  match channelID.toList.splitOn 'x' with
  | [first, second, third] => do
    return (← parseInt first, ← parseInt second, ← parseInt third)
  | _ => none

theorem namedNumbers_eq_some {channelID : String} {one two three : Int} :
    namedNumbers channelID = some (one, two, three) ↔
      ∃ first second third, channelID.toList.splitOn 'x' = [first, second, third] ∧
        parseInt first = some one ∧ parseInt second = some two ∧ parseInt third = some three := by
  unfold namedNumbers
  split
  case h_1 first second third parts =>
    simp only [parts, List.cons.injEq, and_true]
    simp [Option.bind_eq_some_iff]
  case h_2 other =>
    simp only [reduceCtorEq, false_iff]
    rintro ⟨first, second, third, parts, _⟩
    exact other _ _ _ parts

/-- A text other than the empty one is accepted for the numbers it names, whatever they are. -/
theorem newShortChannelIDFromString_eq_ok {channelID : String} {id : ShortChannelID}
    (present : channelID ≠ "") :
    newShortChannelIDFromString channelID = .ok id ↔
      ∃ one two three, namedNumbers channelID = some (one, two, three) ∧
        id = ShortChannelID.toUint64 (UInt32.ofInt one) (UInt32.ofInt two) (UInt16.ofInt three) := by
  rw [newShortChannelIDFromString, if_neg present]
  constructor
  · intro read
    split at read
    case h_1 first second third parts =>
      cases height : parseInt first with
      | none => simp [height] at read
      | some one =>
        cases index : parseInt second with
        | none => simp [height, index] at read
        | some two =>
          cases position : parseInt third with
          | none => simp [height, index, position] at read
          | some three =>
            simp only [height, index, position, Except.ok.injEq] at read
            exact ⟨one, two, three, namedNumbers_eq_some.mpr
              ⟨first, second, third, parts, height, index, position⟩, read.symm⟩
    case h_2 => cases read
  · rintro ⟨one, two, three, named, rfl⟩
    obtain ⟨first, second, third, parts, height, index, position⟩ := namedNumbers_eq_some.mp named
    simp only [parts, height, index, position]

/-- What a text gives whose numbers fit their fields. -/
theorem read_numbers {channelID : String} {one two three : Nat} (present : channelID ≠ "")
    (named : namedNumbers channelID = some ((one : Int), (two : Int), (three : Int)))
    (first : one < 2 ^ 24) (second : two < 2 ^ 24) (third : three < 2 ^ 16) :
    ∃ id, newShortChannelIDFromString channelID = .ok id ∧
      id.toNat = one * 2 ^ 40 + two * 2 ^ 16 + three :=
  ⟨_, (newShortChannelIDFromString_eq_ok present).mpr ⟨one, two, three, named, rfl⟩,
    toNat_packed first second third⟩

theorem namedNumbers_toString (id : ShortChannelID) :
    namedNumbers id.toString = some (((id.toNat / 2 ^ 40 : Nat) : Int),
      ((id.toNat / 2 ^ 16 % 2 ^ 24 : Nat) : Int), ((id.toNat % 2 ^ 16 : Nat) : Int)) := by
  have size := id.toNat_lt
  refine namedNumbers_eq_some.mpr ⟨_, _, _, ?_, parseInt_toDigits (by omega),
    parseInt_toDigits (by omega), parseInt_toDigits (by omega)⟩
  rw [ShortChannelID.toString_eq, toList_numbers]
  exact split_digits (all_isDigit_toDigits _) (all_isDigit_toDigits _) (all_isDigit_toDigits _)

theorem toString_ne_empty (id : ShortChannelID) : id.toString ≠ "" := by
  intro empty
  have named := namedNumbers_toString id
  rw [empty] at named
  cases named

/-- An id is read back from its text. -/
theorem read_toString (id : ShortChannelID) : newShortChannelIDFromString id.toString = .ok id := by
  have size := id.toNat_lt
  obtain ⟨found, read, value⟩ := read_numbers (toString_ne_empty id) (namedNumbers_toString id)
    (by omega) (by omega) (by omega)
  have same : found = id := UInt64.toNat_inj.mp (by omega)
  rw [read, same]

theorem toString_inj {one two : ShortChannelID} : one.toString = two.toString ↔ one = two := by
  constructor
  · intro same
    have read := read_toString one
    rw [same, read_toString] at read
    exact (Except.ok.inj read).symm
  · rintro rfl
    rfl

end reading

section ranges

/-- A component of digits only whose value, where it has one, fits in the bits. -/
def FitsField (bits : Nat) (chars : List Char) : Prop :=
  chars.all Char.isDigit ∧ ∀ value, parseInt chars = some value → value < 2 ^ bits

/-- No component of a text that names three numbers has a sign or is too large for its field. -/
def FieldsFit (channelID : String) : Prop :=
  ∀ first second third, channelID.toList.splitOn 'x' = [first, second, third] →
    namedNumbers channelID ≠ none → FitsField 24 first ∧ FitsField 24 second ∧ FitsField 16 third

/-- A text of three numbers in digits, each within the range of its field. -/
structure Decimal (channelID : String) (blockHeight txIndex txPosition : Nat) : Prop where
  text : ∃ first second third : List Char,
    channelID.toList = first ++ 'x' :: (second ++ 'x' :: third) ∧
    first.all Char.isDigit ∧ second.all Char.isDigit ∧ third.all Char.isDigit ∧
    parseInt first = some (blockHeight : Int) ∧ parseInt second = some (txIndex : Int) ∧
    parseInt third = some (txPosition : Int)
  blockHeight : blockHeight < 2 ^ 24
  txIndex : txIndex < 2 ^ 24
  txPosition : txPosition < 2 ^ 16

/-- An accepted text that is not empty is such a decimal text and its id shows the same
numbers; a text with a number out of its range is rejected. -/
structure ReadExactly (channelID : String) : Prop where
  numbers : ∀ id, newShortChannelIDFromString channelID = .ok id → channelID ≠ "" →
    ∃ one two three, Decimal channelID one two three ∧ id.toString = s!"{one}x{two}x{three}"
  rejected : ∀ one two three, namedNumbers channelID = some (one, two, three) →
    ¬ (0 ≤ one ∧ one < 2 ^ 24 ∧ 0 ≤ two ∧ two < 2 ^ 24 ∧ 0 ≤ three ∧ three < 2 ^ 16) →
    ∃ message, newShortChannelIDFromString channelID = .error message

/-- Accepted texts that name different channels have different ids. -/
def KeptApart (channelID other : String) : Prop :=
  ∀ names others id otherId, namedNumbers channelID = some names →
    namedNumbers other = some others → names ≠ others →
    newShortChannelIDFromString channelID = .ok id →
    newShortChannelIDFromString other = .ok otherId → id ≠ otherId

variable {channelID : String}

theorem ne_empty_of_named {names : Int × Int × Int} (named : namedNumbers channelID = some names) :
    channelID ≠ "" := by
  rintro rfl
  cases named

theorem Decimal.named {one two three : Nat} (decimal : Decimal channelID one two three) :
    namedNumbers channelID = some ((one : Int), (two : Int), (three : Int)) := by
  obtain ⟨first, second, third, text, firstDigits, secondDigits, thirdDigits, values⟩ := decimal.text
  refine namedNumbers_eq_some.mpr ⟨first, second, third, ?_, values⟩
  rw [text, split_digits firstDigits secondDigits thirdDigits]

/-- A text whose fields fit is a decimal text of the numbers it names. -/
theorem FieldsFit.decimal (fit : FieldsFit channelID) {one two three : Int}
    (named : namedNumbers channelID = some (one, two, three)) :
    ∃ a b c : Nat, one = a ∧ two = b ∧ three = c ∧ Decimal channelID a b c := by
  obtain ⟨first, second, third, parts, height, index, position⟩ := namedNumbers_eq_some.mp named
  obtain ⟨⟨firstDigits, heightFits⟩, ⟨secondDigits, indexFits⟩, thirdDigits, positionFits⟩ :=
    fit first second third parts (by simp [named])
  obtain ⟨a, rfl⟩ := natural_of_digits firstDigits height
  obtain ⟨b, rfl⟩ := natural_of_digits secondDigits index
  obtain ⟨c, rfl⟩ := natural_of_digits thirdDigits position
  have text : channelID.toList = first ++ 'x' :: (second ++ 'x' :: third) := by
    have joined := @List.intercalate_splitOn _ channelID.toList _ _ 'x'
    rw [parts] at joined
    simpa [List.intercalate] using joined.symm
  refine ⟨a, b, c, rfl, rfl, rfl, ⟨first, second, third, text, firstDigits, secondDigits,
    thirdDigits, height, index, position⟩, ?_, ?_, ?_⟩
  · exact_mod_cast heightFits a height
  · exact_mod_cast indexFits b index
  · exact_mod_cast positionFits c position

/-- A decimal text is accepted, and its id has the three numbers. -/
theorem Decimal.read {one two three : Nat} (decimal : Decimal channelID one two three) :
    ∃ id, newShortChannelIDFromString channelID = .ok id ∧
      id.toNat = one * 2 ^ 40 + two * 2 ^ 16 + three :=
  read_numbers (ne_empty_of_named decimal.named) decimal.named decimal.blockHeight decimal.txIndex
    decimal.txPosition

theorem FieldsFit.readExactly (fit : FieldsFit channelID) : ReadExactly channelID where
  numbers := by
    intro id accepted present
    obtain ⟨one, two, three, named, _⟩ := (newShortChannelIDFromString_eq_ok present).mp accepted
    obtain ⟨a, b, c, _, _, _, decimal⟩ := fit.decimal named
    obtain ⟨found, read, value⟩ := decimal.read
    obtain rfl : found = id := Except.ok.inj (read.symm.trans accepted)
    have height := decimal.blockHeight
    have index := decimal.txIndex
    have position := decimal.txPosition
    have first : found.toNat / 2 ^ 40 = a := by omega
    have second : found.toNat / 2 ^ 16 % 2 ^ 24 = b := by omega
    have third : found.toNat % 2 ^ 16 = c := by omega
    exact ⟨a, b, c, decimal, by rw [ShortChannelID.toString_eq, first, second, third]⟩
  rejected := by
    intro one two three named outside
    obtain ⟨a, b, c, rfl, rfl, rfl, decimal⟩ := fit.decimal named
    have height := decimal.blockHeight
    have index := decimal.txIndex
    have position := decimal.txPosition
    exact absurd (by omega) outside

/-- Reading is exact only for texts whose fields fit. -/
theorem ReadExactly.fieldsFit (reads : ReadExactly channelID) : FieldsFit channelID := by
  intro first second third parts naming
  obtain ⟨⟨one, two, three⟩, named⟩ := Option.ne_none_iff_exists'.mp naming
  have present := ne_empty_of_named named
  obtain ⟨a, b, c, decimal, _⟩ := reads.numbers _
    ((newShortChannelIDFromString_eq_ok present).mpr ⟨one, two, three, named, rfl⟩) present
  obtain ⟨before, between, after, text, firstDigits, secondDigits, thirdDigits, height, index,
    position⟩ := decimal.text
  rw [text, split_digits firstDigits secondDigits thirdDigits] at parts
  obtain ⟨rfl, rfl, rfl⟩ : before = first ∧ between = second ∧ after = third := by simpa using parts
  have fits {chars : List Char} {number bits : Nat} (read : parseInt chars = some (number : Int))
      (size : number < 2 ^ bits) (value : Int) (same : parseInt chars = some value) :
      value < 2 ^ bits := by
    rw [read] at same
    obtain rfl := Option.some.inj same
    exact_mod_cast size
  exact ⟨⟨firstDigits, fits height decimal.blockHeight⟩, ⟨secondDigits, fits index decimal.txIndex⟩,
    thirdDigits, fits position decimal.txPosition⟩

theorem FieldsFit.keptApart {other : String} (fit : FieldsFit channelID) (otherFit : FieldsFit other) :
    KeptApart channelID other := by
  rintro ⟨one, two, three⟩ ⟨four, five, six⟩ id otherId named otherNamed different read otherRead rfl
  obtain ⟨a, b, c, rfl, rfl, rfl, decimal⟩ := fit.decimal named
  obtain ⟨d, e, f, rfl, rfl, rfl, otherDecimal⟩ := otherFit.decimal otherNamed
  obtain ⟨found, accepted, value⟩ := decimal.read
  obtain ⟨otherFound, otherAccepted, otherValue⟩ := otherDecimal.read
  obtain rfl : found = id := Except.ok.inj (accepted.symm.trans read)
  obtain rfl : otherFound = found := Except.ok.inj (otherAccepted.symm.trans otherRead)
  apply different
  have index := decimal.txIndex
  have position := decimal.txPosition
  have otherIndex := otherDecimal.txIndex
  have otherPosition := otherDecimal.txPosition
  have same : a = d ∧ b = e ∧ c = f := by omega
  obtain ⟨rfl, rfl, rfl⟩ := same
  rfl

/-- Texts are read exactly, and those of different channels to different ids, if and only
if no number they name has a sign or is too large for its field. -/
theorem newShortChannelIDFromString_exact_iff (channelID other : String) :
    ReadExactly channelID ∧ ReadExactly other ∧ KeptApart channelID other ↔
      FieldsFit channelID ∧ FieldsFit other := by
  constructor
  · rintro ⟨reads, otherReads, _⟩
    exact ⟨reads.fieldsFit, otherReads.fieldsFit⟩
  · rintro ⟨fit, otherFit⟩
    exact ⟨fit.readExactly, otherFit.readExactly, fit.keptApart otherFit⟩

/-- The block height `2 ^ 24` is shifted out of the id, which is the one of block 0. -/
theorem high_block_read_as_zero :
    ¬ (ReadExactly "16777216x0x0" ∧ ReadExactly "0x0x0" ∧ KeptApart "16777216x0x0" "0x0x0") := by
  rintro ⟨_, _, apart⟩
  exact apart (16777216, 0, 0) (0, 0, 0) 0 0 (by decide) (by decide) (by decide) (by decide)
    (by decide) rfl

/-- A large index runs into the block height, and a negative height wraps around. -/
example : newShortChannelIDFromString "0x16777216x0" = newShortChannelIDFromString "1x0x0" ∧
    newShortChannelIDFromString "-1x0x0" = newShortChannelIDFromString "16777215x0x0" := by
  decide

end ranges

end Lspd.Lightning
