import Lspd.Codec.Lexer

/-! The inside of json strings: what its escapes stand for. -/

namespace Lspd.Codec

/-- The value of a hexadecimal digit, in either case. -/
def hexDigit (char : Char) : Option Nat :=
  if '0' ≤ char ∧ char ≤ '9' then some (char.toNat - '0'.toNat)
  else if 'a' ≤ char ∧ char ≤ 'f' then some (char.toNat - 'a'.toNat + 10)
  else if 'A' ≤ char ∧ char ≤ 'F' then some (char.toNat - 'A'.toNat + 10)
  else none

/-- The number four hexadecimal digits stand for. -/
def hexNumber (a b c d : Char) : Option Nat := do
  let a ← hexDigit a
  let b ← hexDigit b
  let c ← hexDigit c
  let d ← hexDigit d
  return ((a * 16 + b) * 16 + c) * 16 + d

/-- The character behind a backslash. -/
def simpleEscape (char : Char) : Option Char :=
  if char = '"' ∨ char = '\\' ∨ char = '/' then some char
  else if char = 'b' then some '\x08'
  else if char = 'f' then some '\x0c'
  else if char = 'n' then some '\n'
  else if char = 'r' then some '\r'
  else if char = 't' then some '\t'
  else none

/-- Characters that stand for themselves in a string. -/
def plain (char : Char) : Bool := char ≠ '"' ∧ char ≠ '\\' ∧ 0x20 ≤ char.toNat

/-- A character, or one half of one that is written as two escapes. -/
inductive Piece where
  | char (char : Char)
  | surrogate (value : Nat)
  deriving DecidableEq

def Piece.ofNumber (value : Nat) : Piece :=
  if 0xD800 ≤ value ∧ value ≤ 0xDFFF then .surrogate value else .char (.ofNat value)

def pieces : List Char → Option (List Piece)
  | [] => some []
  | first :: rest =>
    if first = '\\' then
      match rest with
      | [] => none
      | second :: rest =>
        if second = 'u' then
          match rest with
          | a :: b :: c :: d :: rest =>
            (hexNumber a b c d).bind fun value => (pieces rest).map (.ofNumber value :: ·)
          | _ => none
        else (simpleEscape second).bind fun char => (pieces rest).map (.char char :: ·)
    else if plain first then (pieces rest).map (.char first :: ·)
    else none

def replacement : Char := '\ufffd'

/-- The characters of a string. A half that is not followed by the other one is
replaced. -/
def combine : List Piece → List Char
  | [] => []
  | .char char :: rest => char :: combine rest
  | .surrogate high :: .surrogate low :: rest =>
    if high < 0xDC00 ∧ 0xDC00 ≤ low then
      .ofNat (0x10000 + (high - 0xD800) * 0x400 + (low - 0xDC00)) :: combine rest
    else replacement :: combine (.surrogate low :: rest)
  | .surrogate _ :: rest => replacement :: combine rest

def unquote (raw : List Char) : Option (List Char) := (pieces raw).map combine

section escapes

@[simp] theorem pieces_nil : pieces [] = some [] := rfl

theorem pieces_plain {first : Char} (ordinary : plain first = true) (rest : List Char) :
    pieces (first :: rest) = (pieces rest).map (.char first :: ·) := by
  have notEscape : first ≠ '\\' := by
    rintro rfl
    exact absurd ordinary (by decide)
  rw [pieces.eq_def]
  exact (if_neg notEscape).trans (if_pos ordinary)

theorem pieces_simple {second char : Char} (known : simpleEscape second = some char)
    (rest : List Char) : pieces ('\\' :: second :: rest) = (pieces rest).map (.char char :: ·) := by
  have notUnicode : second ≠ 'u' := by
    rintro rfl
    cases known
  rw [pieces.eq_def]
  simp [notUnicode, known]

theorem pieces_unicode {a b c d : Char} {value : Nat} (number : hexNumber a b c d = some value)
    (rest : List Char) :
    pieces ('\\' :: 'u' :: a :: b :: c :: d :: rest) =
      (pieces rest).map (.ofNumber value :: ·) := by
  simp [pieces, number]

/-- How a string is written, piece by piece. -/
inductive Spells : List Char → List Piece → Prop
  | nil : Spells [] []
  | plain {first : Char} {rest : List Char} {later : List Piece} (allowed : plain first = true)
      (more : Spells rest later) : Spells (first :: rest) (.char first :: later)
  | simple {second char : Char} {rest : List Char} {later : List Piece}
      (known : simpleEscape second = some char) (more : Spells rest later) :
      Spells ('\\' :: second :: rest) (.char char :: later)
  | unicode {a b c d : Char} {value : Nat} {rest : List Char} {later : List Piece}
      (number : hexNumber a b c d = some value) (more : Spells rest later) :
      Spells ('\\' :: 'u' :: a :: b :: c :: d :: rest) (.ofNumber value :: later)

theorem spells_of_pieces {raw : List Char} {found : List Piece} (read : pieces raw = some found) :
    Spells raw found := by
  fun_induction pieces raw generalizing found with
  | case1 =>
    obtain rfl := Option.some.inj read
    exact .nil
  | case2 => cases read
  | case3 a b c d rest ih =>
    obtain ⟨value, number, read⟩ := Option.bind_eq_some_iff.mp read
    obtain ⟨later, more, rfl⟩ := Option.map_eq_some_iff.mp read
    exact .unicode number (ih more)
  | case4 => cases read
  | case5 second rest other ih =>
    obtain ⟨char, known, read⟩ := Option.bind_eq_some_iff.mp read
    obtain ⟨later, more, rfl⟩ := Option.map_eq_some_iff.mp read
    exact .simple known (ih more)
  | case6 first rest escape allowed ih =>
    obtain ⟨later, more, rfl⟩ := Option.map_eq_some_iff.mp read
    exact .plain allowed (ih more)
  | case7 => cases read

theorem Spells.pieces {raw : List Char} {found : List Piece} (spells : Spells raw found) :
    pieces raw = some found := by
  induction spells with
  | nil => rfl
  | plain allowed _ ih => rw [pieces_plain allowed, ih]; rfl
  | simple known _ ih => rw [pieces_simple known, ih]; rfl
  | unicode number _ ih => rw [pieces_unicode number, ih]; rfl

theorem hexDigits_of_hexNumber {a b c d : Char} {value : Nat}
    (number : hexNumber a b c d = some value) :
    ∀ digit ∈ [a, b, c, d], (hexDigit digit).isSome := by
  simp only [hexNumber, Option.bind_eq_bind, Option.bind_eq_some_iff] at number
  obtain ⟨_, first, _, second, _, third, _, fourth, _⟩ := number
  simp [first, second, third, fourth]

theorem plain_of_hexDigit {digit : Char} (known : (hexDigit digit).isSome) : plain digit = true := by
  have quote : digit ≠ '"' := by
    rintro rfl
    exact absurd known (by decide)
  have escape : digit ≠ '\\' := by
    rintro rfl
    exact absurd known (by decide)
  have printable : 0x20 ≤ digit.toNat := by
    unfold hexDigit at known
    split_ifs at known with decimal lower upper
    · exact Nat.le_trans (by decide) (UInt32.le_iff_toNat_le.mp decimal.1)
    · exact Nat.le_trans (by decide) (UInt32.le_iff_toNat_le.mp lower.1)
    · exact Nat.le_trans (by decide) (UInt32.le_iff_toNat_le.mp upper.1)
    · cases known
  simp [plain, quote, escape, printable]

/-- What is checked for these characters holds for all that follow a backslash alone. -/
theorem of_simpleEscape {property : Char → Bool}
    (checked : ['"', '\\', '/', 'b', 'f', 'n', 'r', 't'].all property = true) {second char : Char}
    (known : simpleEscape second = some char) : property second = true := by
  refine List.all_eq_true.mp checked second ?_
  by_contra unknown
  simp only [List.mem_cons, List.not_mem_nil, or_false, not_or] at unknown
  simp [simpleEscape, unknown] at known

theorem printable_of_simpleEscape {second char : Char} (known : simpleEscape second = some char) :
    0x20 ≤ second.toNat :=
  have checked : ['"', '\\', '/', 'b', 'f', 'n', 'r', 't'].all (0x20 ≤ ·.toNat) = true := by decide
  of_decide_eq_true (of_simpleEscape checked known)

theorem printable_of_plain {char : Char} (allowed : plain char = true) : 0x20 ≤ char.toNat := by
  simp only [plain, decide_eq_true_eq] at allowed
  exact allowed.2.2

/-- Control characters are only written as escapes. -/
theorem Spells.printable {raw : List Char} {found : List Piece} (spells : Spells raw found) :
    ∀ char ∈ raw, 0x20 ≤ char.toNat := by
  induction spells with
  | nil => simp
  | plain allowed _ ih => simpa [printable_of_plain allowed] using ih
  | simple known _ ih => simpa [printable_of_simpleEscape known] using ih
  | unicode number _ ih =>
    have digits := fun digit member =>
      printable_of_plain (plain_of_hexDigit (hexDigits_of_hexNumber number digit member))
    simp only [List.forall_mem_cons] at digits
    simpa [digits] using ih

theorem spells_of_unquote {raw text : List Char} (read : unquote raw = some text) :
    ∃ found, Spells raw found ∧ combine found = text := by
  obtain ⟨found, pieces, rfl⟩ := Option.map_eq_some_iff.mp read
  exact ⟨found, spells_of_pieces pieces, rfl⟩

theorem Spells.unquote {raw : List Char} {found : List Piece} (spells : Spells raw found) :
    unquote raw = some (combine found) := by
  rw [Codec.unquote, spells.pieces]
  rfl

/-- A string ends where its text says. -/
theorem Spells.closed {Symbol : Type} {A : Alphabet Symbol} {raw : List Symbol}
    {found : List Piece} (spells : Spells (raw.map A.view) found) : A.Closed raw := by
  have single {symbol : Symbol} (allowed : Codec.plain (A.view symbol) = true) :
      A.Closed [symbol] := by
    simp only [Codec.plain, decide_eq_true_eq] at allowed
    exact Alphabet.closed_plain allowed.1 allowed.2.1
  generalize same : raw.map A.view = chars at spells
  induction spells generalizing raw with
  | nil =>
    obtain rfl := List.map_eq_nil_iff.mp same
    exact Alphabet.closed_nil
  | plain allowed _ ih =>
    obtain ⟨symbol, rest, rfl, rfl, rfl⟩ := List.map_eq_cons_iff.mp same
    exact (single allowed).append (ih rfl)
  | simple known _ ih =>
    obtain ⟨escape, behind, rfl, first, same⟩ := List.map_eq_cons_iff.mp same
    obtain ⟨symbol, rest, rfl, rfl, rfl⟩ := List.map_eq_cons_iff.mp same
    exact (Alphabet.closed_escaped first).append (ih rfl)
  | unicode number _ ih =>
    have digits := fun digit member =>
      plain_of_hexDigit (hexDigits_of_hexNumber number digit member)
    simp only [List.forall_mem_cons] at digits
    simp only [List.map_eq_cons_iff] at same
    obtain ⟨escape, _, rfl, first, _, _, rfl, _, a, _, rfl, rfl, b, _, rfl, rfl, c, _, rfl, rfl,
      d, rest, rfl, rfl, rfl⟩ := same
    exact (Alphabet.closed_escaped first).append <| (single digits.1).append <|
      (single digits.2.1).append <| (single digits.2.2.1).append <|
      (single digits.2.2.2.1).append (ih rfl)

end escapes

section unicode

def unicodeEscape (value : Nat) : List Char :=
  ['\\', 'u', Nat.digitChar (value / 4096), Nat.digitChar (value / 256 % 16),
    Nat.digitChar (value / 16 % 16), Nat.digitChar (value % 16)]

theorem hexDigit_digitChar : ∀ digit < 16, hexDigit (Nat.digitChar digit) = some digit := by
  decide

theorem hexNumber_digitChars {value : Nat} (small : value < 65536) :
    hexNumber (Nat.digitChar (value / 4096)) (Nat.digitChar (value / 256 % 16))
      (Nat.digitChar (value / 16 % 16)) (Nat.digitChar (value % 16)) = some value := by
  have digits := hexDigit_digitChar
  simp only [hexNumber, digits _ (show value / 4096 < 16 by omega),
    digits _ (Nat.mod_lt _ (by decide : 0 < 16)), Option.bind_eq_bind, Option.bind_some]
  exact congrArg some (by omega)

theorem Piece.ofNumber_toNat (char : Char) : Piece.ofNumber char.toNat = .char char := by
  have valid : ¬ (0xD800 ≤ char.toNat ∧ char.toNat ≤ 0xDFFF) := by
    rcases char.valid with low | high
    · exact fun surrogate => Nat.not_le.mpr low surrogate.1
    · exact fun surrogate => Nat.not_le.mpr high.1 surrogate.2
  rw [Piece.ofNumber, if_neg valid, Char.ofNat_toNat]

/-- A character may always be written by its number, if that is short enough. -/
theorem Spells.escaped {char : Char} {rest : List Char} {later : List Piece}
    (small : char.toNat < 65536) (more : Spells rest later) :
    Spells (unicodeEscape char.toNat ++ rest) (.char char :: later) :=
  Piece.ofNumber_toNat char ▸ Spells.unicode (hexNumber_digitChars small) more

end unicode

section combine

variable {raw : List Char} {found : List Piece}

theorem combine_chars (chars : List Char) : combine (chars.map .char) = chars := by
  induction chars with
  | nil => rfl
  | cons char rest ih => simp [combine, ih]

theorem unquote_of_plain {text : List Char} (ordinary : text.all plain = true) :
    unquote text = some text := by
  have spells : Spells text (text.map .char) := by
    induction text with
    | nil => exact .nil
    | cons char rest ih =>
      rw [List.all_cons, Bool.and_eq_true] at ordinary
      exact (ih ordinary.2).plain ordinary.1
  rw [spells.unquote, combine_chars]

theorem length_combine (found : List Piece) : (combine found).length ≤ found.length := by
  fun_induction combine found with
  | case1 => simp
  | case2 char rest ih => simpa using ih
  | case3 high low rest pair ih => simp; omega
  | case4 high low rest other ih => simpa using ih
  | case5 high rest other ih => simpa using ih

theorem Spells.length_le (spells : Spells raw found) : found.length ≤ raw.length := by
  induction spells with
  | nil => exact Nat.le_refl _
  | plain _ _ ih => simpa using ih
  | simple _ _ ih => simp; omega
  | unicode _ _ ih => simp; omega

/-- Every escape is longer than what it stands for. -/
theorem Spells.length_lt (spells : Spells raw found) (escaped : '\\' ∈ raw) :
    found.length < raw.length := by
  induction spells with
  | nil => simp at escaped
  | plain allowed _ ih =>
    rcases List.mem_cons.mp escaped with rfl | later
    · exact absurd allowed (by decide)
    · simpa using ih later
  | simple _ more _ =>
    have shorter := more.length_le
    simp; omega
  | unicode _ more _ =>
    have shorter := more.length_le
    simp; omega

theorem Spells.eq_chars (spells : Spells raw found) (unescaped : '\\' ∉ raw) :
    found = raw.map .char := by
  induction spells with
  | nil => rfl
  | plain _ _ ih => rw [ih fun later => unescaped (.tail _ later), List.map_cons]
  | simple => exact absurd (.head _) unescaped
  | unicode => exact absurd (.head _) unescaped

/-- A character that no escape ends with, unless it stands for it. -/
def Lasting (char : Char) : Prop :=
  (hexDigit char).isSome = false ∧ ∀ other, simpleEscape char = some other → other = char

theorem Spells.getLast? {char : Char} (spells : Spells raw found) (lasting : Lasting char)
    (last : raw.getLast? = some char) : found.getLast? = some (.char char) := by
  induction spells with
  | nil => cases last
  | @plain first rest later _ more ih =>
    cases rest with
    | nil =>
      cases more
      simpa using last
    | cons second rest => simp [List.getLast?_cons, ih (by simpa using last)]
  | @simple second escaped rest later known more ih =>
    cases rest with
    | nil =>
      cases more
      obtain rfl : second = char := by simpa using last
      simp [lasting.2 _ known]
    | cons third rest => simp [List.getLast?_cons, ih (by simpa using last)]
  | @unicode a b c d value rest later number more ih =>
    cases rest with
    | nil =>
      obtain rfl : d = char := by simpa using last
      exact absurd (hexDigits_of_hexNumber number d (by simp)) (by simp [lasting.1])
    | cons third rest => simp [List.getLast?_cons, ih (by simpa using last)]

theorem Spells.head?_combine {char : Char} (spells : Spells raw found)
    (first : raw.head? = some char) (plain : char ≠ '\\') : (combine found).head? = some char := by
  cases spells with
  | nil => cases first
  | plain => exact first
  | simple => exact absurd (Option.some.inj first).symm plain
  | unicode => exact absurd (Option.some.inj first).symm plain

/-- A quote at the end of a string is an escaped one. -/
theorem Spells.getLast?_dropLast (spells : Spells raw found) (last : raw.getLast? = some '"') :
    raw.dropLast.getLast? = some '\\' := by
  induction spells with
  | nil => cases last
  | @plain first rest later allowed more ih =>
    cases rest with
    | nil =>
      obtain rfl : first = '"' := by simpa using last
      cases allowed
    | cons second rest => simp [List.getLast?_cons, ih (by simpa using last)]
  | @simple second escaped rest later known more ih =>
    cases rest with
    | nil => rfl
    | cons third rest => simp [List.getLast?_cons, ih (by simpa using last)]
  | @unicode a b c d value rest later number more ih =>
    cases rest with
    | nil =>
      obtain rfl : d = '"' := by simpa using last
      cases hexDigits_of_hexNumber number '"' (by simp)
    | cons third rest => simp [List.getLast?_cons, ih (by simpa using last)]

theorem Spells.head?_ne_quote (spells : Spells raw found) : raw.head? ≠ some '"' := by
  cases spells with
  | nil => nofun
  | plain allowed _ =>
    rintro ⟨⟩
    cases allowed
  | simple => nofun
  | unicode => nofun

theorem getLast?_combine {char : Char} (last : found.getLast? = some (.char char)) :
    (combine found).getLast? = some char := by
  fun_induction combine found with
  | case1 => cases last
  | case2 first rest ih =>
    cases rest with
    | nil => simpa [combine] using last
    | cons second rest => simp [List.getLast?_cons, ih (by simpa using last)]
  | case3 high low rest pair ih =>
    cases rest with
    | nil => simp at last
    | cons third rest => simp [List.getLast?_cons, ih (by simpa using last)]
  | case4 high low rest other ih => simp [List.getLast?_cons, ih (by simpa using last)]
  | case5 high rest other ih =>
    cases rest with
    | nil => simp at last
    | cons second rest => simp [List.getLast?_cons, ih (by simpa using last)]

end combine

section html

/-- Characters that are kept out of strings for the sake of html and javascript. -/
def htmlSensitive (char : Char) : Bool := char ∈ ['<', '>', '&', '\u2028', '\u2029']

def htmlEscape {Symbol : Type} (A : Alphabet Symbol) (symbol : Symbol) : List Symbol :=
  if htmlSensitive (A.view symbol) then (unicodeEscape (A.view symbol).toNat).map A.ofChar
  else [symbol]

theorem htmlSensitive_iff {char : Char} : htmlSensitive char = true ↔
    char = '<' ∨ char = '>' ∨ char = '&' ∨ char = '\u2028' ∨ char = '\u2029' := by
  simp [htmlSensitive]

theorem insensitive_of_hexDigit {digit : Char} (known : (hexDigit digit).isSome) :
    htmlSensitive digit = false := by
  rw [← Bool.not_eq_true]
  intro sensitive
  rcases htmlSensitive_iff.mp sensitive with rfl | rfl | rfl | rfl | rfl <;> cases known

theorem insensitive_of_simpleEscape {second char : Char} (known : simpleEscape second = some char) :
    htmlSensitive second = false := by
  have checked : ['"', '\\', '/', 'b', 'f', 'n', 'r', 't'].all (!htmlSensitive ·) = true := by decide
  simpa using of_simpleEscape checked known

theorem Spells.htmlEscape {raw : List Char} {found : List Piece} (spells : Spells raw found) :
    Spells (raw.flatMap (htmlEscape .char)) found := by
  induction spells with
  | nil => exact .nil
  | @plain first rest later allowed _ ih =>
    by_cases sensitive : htmlSensitive first = true
    · have small : first.toNat < 65536 := by
        rcases htmlSensitive_iff.mp sensitive with rfl | rfl | rfl | rfl | rfl <;> decide
      simpa [Codec.htmlEscape, sensitive] using ih.escaped small
    · rw [Bool.not_eq_true] at sensitive
      simpa [Codec.htmlEscape, sensitive] using ih.plain allowed
  | simple known _ ih =>
    have backslash : htmlSensitive '\\' = false := by decide
    simpa [Codec.htmlEscape, backslash, insensitive_of_simpleEscape known] using ih.simple known
  | unicode number _ ih =>
    have backslash : htmlSensitive '\\' = false := by decide
    have letter : htmlSensitive 'u' = false := by decide
    have digits := fun digit member =>
      insensitive_of_hexDigit (hexDigits_of_hexNumber number digit member)
    simp only [List.forall_mem_cons] at digits
    simpa [Codec.htmlEscape, backslash, letter, digits] using ih.unicode number

theorem map_htmlEscape {Symbol : Type} (A : Alphabet Symbol) (raw : List Symbol) :
    (raw.flatMap (htmlEscape A)).map A.view = (raw.map A.view).flatMap (htmlEscape .char) := by
  have one (symbol : Symbol) :
      (htmlEscape A symbol).map A.view = htmlEscape .char (A.view symbol) := by
    by_cases sensitive : htmlSensitive (A.view symbol) = true
    · simp [htmlEscape, sensitive, Function.comp_def]
    · simp [htmlEscape, sensitive]
  simp [List.map_flatMap, List.flatMap_map, one]

end html

end Lspd.Codec
