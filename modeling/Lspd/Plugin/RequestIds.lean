import Lspd.Codec.Compaction
import Lspd.Common.OpeningService
import Mathlib.Data.List.DropRight

/-! The ids of `htlc_accepted` requests. The json text of an id is trimmed to the
correlation id the grpc server works with, and that one is written as the id of the
response. -/

namespace Lspd.Plugin

open Lspd.Common Lspd.Codec

section trim

/-- `strings.TrimFunc`. -/
def trim (cut : Char → Bool) (text : List Char) : List Char :=
  (text.dropWhile cut).rdropWhile cut

/-- `unicode.IsSpace`. -/
def isSpace (char : Char) : Bool :=
  char ∈ ['\t', '\n', '\x0b', '\x0c', '\r', ' ', '\u0085', '\u00a0', '\u1680', '\u2028', '\u2029',
    '\u202f', '\u205f', '\u3000'] ∨ (0x2000 ≤ char.toNat ∧ char.toNat ≤ 0x200a)

variable {cut : Char → Bool} {text : List Char} {char : Char}

theorem head?_trim (first : (trim cut text).head? = some char) : cut char = false := by
  obtain ⟨rest, same⟩ := List.rdropWhile_prefix cut (text.dropWhile cut)
  have stopped := List.head?_dropWhile_not cut text
  rw [← same, List.head?_append, show (List.rdropWhile cut _).head? = _ from first] at stopped
  exact stopped

theorem getLast?_trim (last : (trim cut text).getLast? = some char) : cut char = false := by
  have nonempty : trim cut text ≠ [] := by
    intro empty
    rw [empty] at last
    cases last
  have stopped := List.rdropWhile_last_not cut _ nonempty
  rw [List.getLast?_eq_some_getLast nonempty] at last
  obtain rfl := Option.some.inj last
  exact eq_false_of_ne_true stopped

theorem trim_eq_self (first : ∀ char, text.head? = some char → cut char = false)
    (last : ∀ char, text.getLast? = some char → cut char = false) : trim cut text = text := by
  have ahead : text.dropWhile cut = text := by
    cases text with
    | nil => rfl
    | cons char rest => exact List.dropWhile_cons_of_neg (by simp [first char rfl])
  rw [trim, ahead, List.rdropWhile_eq_self_iff]
  intro nonempty
  rw [last _ (List.getLast?_eq_some_getLast nonempty)]
  exact Bool.false_ne_true

theorem getLast?_trim_of_keep (last : text.getLast? = some char) (keep : cut char = false) :
    (trim cut text).getLast? = some char := by
  obtain ⟨before, rfl⟩ := List.getLast?_eq_some_iff.mp last
  obtain ⟨kept, same⟩ : ∃ kept, (before ++ [char]).dropWhile cut = kept ++ [char] := by
    rw [List.dropWhile_append]
    split
    · exact ⟨[], by simp [keep]⟩
    · exact ⟨_, rfl⟩
  rw [trim, same, List.rdropWhile_concat_neg _ _ _ (by simp [keep])]
  exact List.getLast?_concat

end trim

/-- `idToString`, for an id as `json.Unmarshal` keeps it. -/
def idToString (id : String) : String :=
  if id = "" then ""
  else
    let str := trim isSpace id.toList
    let str := trim (· = '"') str
    .ofList (trim (· = '\x27') str)

theorem idToString_ofList {id : List Char} (nonempty : id ≠ []) :
    idToString (.ofList id) =
      .ofList (trim (· = '\x27') (trim (· = '"') (trim isSpace id))) := by
  have text : String.ofList id ≠ "" := by
    intro empty
    exact nonempty (by simpa using congrArg String.toList empty)
  simp only [idToString, if_neg text, String.toList_ofList]

/-- The id of the response, as `json.Marshal` writes it. -/
def responseId (correlationId : String) : Option (List Char) :=
  Alphabet.char.compact (marshalString correlationId).toList

/-- The json text of a string or an integer, and its value. -/
inductive IsId : String → Json → Prop
  | string {inner text : List Char} (read : unquote inner = some text) :
      IsId (.ofList ('"' :: (inner ++ ['"']))) (.string text)
  | integer {digits : List Char} (number : isInteger digits = true) :
      IsId (.ofList digits) (.number digits)

theorem IsId.parse {id : String} {value : Json} (isId : IsId id value) :
    Alphabet.char.parse id.toList = some value := by
  cases isId with
  | @string inner text read =>
    have known : Alphabet.char.token (.string inner) = some (.atom (.string text)) := by
      simp [Alphabet.token, read]
    rw [String.toList_ofList]
    exact Alphabet.parse_renderLexeme known
  | @integer digits number =>
    have known : Alphabet.char.token (.word digits) = some (.atom (.number digits)) := by
      simp [Alphabet.token, literal_integer number]
    rw [String.toList_ofList]
    exact Alphabet.parse_renderLexeme known

theorem responseId_eq (correlationId : String) :
    ∃ text, responseId correlationId = some text ∧
      Alphabet.char.parse text = some (.string correlationId.toList) := by
  have known : Alphabet.char.token (.string (correlationId.toList.flatMap escapeChar)) =
      some (.atom (.string correlationId.toList)) := by
    simp [Alphabet.token, unquote_escape]
  have parsed := Alphabet.parse_renderLexeme known
  have same : Alphabet.char.renderLexeme (.string (correlationId.toList.flatMap escapeChar)) =
      (marshalString correlationId).toList := by
    simp [marshalString, Alphabet.renderLexeme]
  rw [same] at parsed
  obtain ⟨text, compacted, value, _⟩ := Alphabet.parse_compact parsed
  exact ⟨text, compacted, value⟩

section strings

variable {inner text : List Char}

/-- Only the quotes around a string and those at its end are cut off. -/
theorem idToString_string {found : List Piece} (spells : Spells inner found) :
    idToString (.ofList ('"' :: (inner ++ ['"']))) =
      .ofList (trim (· = '\x27') (inner.rdropWhile (· = '"'))) := by
  have spaces : trim isSpace ('"' :: (inner ++ ['"'])) = '"' :: (inner ++ ['"']) := by
    refine trim_eq_self ?_ ?_
    · rintro char ⟨⟩
      decide
    · intro char last
      obtain rfl : char = '"' := by simpa [List.getLast?_cons] using last.symm
      decide
  have quotes : trim (· = '"') ('"' :: (inner ++ ['"'])) = inner.rdropWhile (· = '"') := by
    have first := spells.head?_ne_quote
    cases inner with
    | nil => rfl
    | cons second rest =>
      have different : second ≠ '"' := fun same => first (congrArg some same)
      have ahead : ('"' :: (second :: rest ++ ['"'])).dropWhile (· = '"') =
          second :: rest ++ ['"'] := by
        simp [different]
      rw [trim, ahead, List.rdropWhile_concat_pos _ _ _ (by simp)]
  rw [idToString_ofList (List.cons_ne_nil _ _), spaces, quotes]

/-- The json text of a string that has no escapes and no single quote at either end. -/
def Unescaped (id : String) : Prop :=
  ∃ inner, id = .ofList ('"' :: (inner ++ ['"'])) ∧ '\\' ∉ inner ∧ inner.head? ≠ some '\x27' ∧
    inner.getLast? ≠ some '\x27'

theorem rdropWhile_quote (last : inner.getLast? ≠ some '"') :
    inner.rdropWhile (· = '"') = inner := by
  rw [List.rdropWhile_eq_self_iff]
  intro nonempty same
  rw [decide_eq_true_eq] at same
  exact last (same ▸ List.getLast?_eq_some_getLast nonempty)

theorem trim_single (first : inner.head? ≠ some '\x27') (last : inner.getLast? ≠ some '\x27') :
    trim (· = '\x27') inner = inner := by
  refine trim_eq_self ?_ ?_
  · intro char here
    exact decide_eq_false fun same => first (same ▸ here)
  · intro char here
    exact decide_eq_false fun same => last (same ▸ here)

theorem idToString_unescaped {found : List Piece} (spells : Spells inner found)
    (unescaped : '\\' ∉ inner) (first : inner.head? ≠ some '\x27') (last : inner.getLast? ≠ some '\x27') :
    idToString (.ofList ('"' :: (inner ++ ['"']))) = .ofList (combine found) := by
  have quote : inner.getLast? ≠ some '"' := by
    intro quote
    have escape := List.mem_of_getLast? (spells.getLast?_dropLast quote)
    exact unescaped ((List.dropLast_sublist _).subset escape)
  rw [idToString_string spells, rdropWhile_quote quote, trim_single first last,
    spells.eq_chars unescaped, combine_chars]

theorem lasting_quote : Lasting '"' :=
  ⟨rfl, fun _ known => (Option.some.inj known).symm⟩

theorem lasting_apostrophe : Lasting '\x27' :=
  ⟨rfl, fun _ known => nomatch known⟩

/-- A string whose trimmed text is its value has no escapes and no single quote at
either end. -/
theorem unescaped_of_idToString {found : List Piece} (spells : Spells inner found)
    (same : idToString (.ofList ('"' :: (inner ++ ['"']))) = .ofList (combine found)) :
    '\\' ∉ inner ∧ inner.head? ≠ some '\x27' ∧ inner.getLast? ≠ some '\x27' := by
  rw [idToString_string spells] at same
  replace same : trim (· = '\x27') (inner.rdropWhile (· = '"')) = combine found := by
    simpa using congrArg String.toList same
  have quote : inner.getLast? ≠ some '"' := by
    intro quote
    -- The backslash of an escaped quote at the end is left over.
    have value := getLast?_combine (spells.getLast? lasting_quote quote)
    have escape := spells.getLast?_dropLast quote
    obtain ⟨before, rfl⟩ := List.getLast?_eq_some_iff.mp quote
    rw [List.dropLast_concat] at escape
    rw [List.rdropWhile_concat_pos _ _ _ (by simp),
      rdropWhile_quote (by rw [escape]; decide)] at same
    rw [← same, getLast?_trim_of_keep escape (by decide)] at value
    cases value
  rw [rdropWhile_quote quote] at same
  have first : inner.head? ≠ some '\x27' := by
    intro here
    have value := spells.head?_combine here (by decide)
    rw [← same] at value
    exact absurd (head?_trim value) (by decide)
  have last : inner.getLast? ≠ some '\x27' := by
    intro here
    have value := getLast?_combine (spells.getLast? lasting_apostrophe here)
    rw [← same] at value
    exact absurd (getLast?_trim value) (by decide)
  rw [trim_single first last] at same
  refine ⟨?_, first, last⟩
  intro escaped
  have shorter := spells.length_lt escaped
  have longer := length_combine found
  rw [← same] at longer
  omega

end strings

/-- The response to a request has the request's id. -/
def Answered (id : String) (value : Json) : Prop :=
  (responseId (idToString id)).bind Alphabet.char.parse = some value

theorem answered_iff {id : String} {value : Json} :
    Answered id value ↔ value = .string (idToString id).toList := by
  obtain ⟨text, written, parsed⟩ := responseId_eq (idToString id)
  simp [Answered, written, parsed, eq_comm]

theorem answered_iff_unescaped {id : String} {value : Json} (isId : IsId id value) :
    Answered id value ↔ Unescaped id := by
  rw [answered_iff]
  cases isId with
  | @string inner text read =>
    obtain ⟨found, spells, rfl⟩ := spells_of_unquote read
    constructor
    · intro same
      refine ⟨inner, rfl, unescaped_of_idToString spells ?_⟩
      rw [Json.string.inj same, String.ofList_toList]
    · rintro ⟨other, same, unescaped, first, last⟩
      obtain rfl : inner = other := by simpa using congrArg String.toList same
      rw [idToString_unescaped spells unescaped first last, String.toList_ofList]
  | @integer digits number =>
    constructor
    · nofun
    · rintro ⟨inner, same, _⟩
      obtain rfl : digits = '"' :: (inner ++ ['"']) := by simpa using congrArg String.toList same
      cases number

/-- The responses to two requests have the ids of the requests, and different ids get
different correlation ids, exactly if both are strings without escapes and without single
quotes around them. -/
theorem ids_kept_iff {one two : String} {first second : Json} (isFirst : IsId one first)
    (isSecond : IsId two second) :
    (Answered one first ∧ Answered two second ∧
      (first ≠ second → idToString one ≠ idToString two)) ↔ Unescaped one ∧ Unescaped two := by
  rw [← answered_iff_unescaped isFirst, ← answered_iff_unescaped isSecond]
  constructor
  · exact fun kept => ⟨kept.1, kept.2.1⟩
  · rintro ⟨firstKept, secondKept⟩
    refine ⟨firstKept, secondKept, ?_⟩
    intro different same
    rw [answered_iff] at firstKept secondKept
    exact different (firstKept.trans (same ▸ secondKept.symm))

/-- The json text of a string. -/
def quoted (inner : List Char) : String := .ofList ('"' :: (inner ++ ['"']))

/-- Ids as cln sends them, up to their length. -/
theorem ids_kept_iff_sample :
    Answered (quoted ['c', 'l', 'n', '#', '8']) (.string ['c', 'l', 'n', '#', '8']) ∧
      Answered (quoted ['c', 'l', 'n', '#', '9']) (.string ['c', 'l', 'n', '#', '9']) ∧
      (Json.string ['c', 'l', 'n', '#', '8'] ≠ .string ['c', 'l', 'n', '#', '9'] →
        idToString (quoted ['c', 'l', 'n', '#', '8']) ≠
          idToString (quoted ['c', 'l', 'n', '#', '9'])) :=
  (ids_kept_iff (.string (by decide)) (.string (by decide))).mpr
    ⟨⟨_, rfl, by decide⟩, ⟨_, rfl, by decide⟩⟩

/-- The integer 1 is answered as the string 1, and the two have the same correlation id.
An escaped line break is answered as a backslash and a letter. -/
theorem integer_id_answered_as_string :
    IsId (.ofList ['1']) (.number ['1']) ∧ IsId (quoted ['1']) (.string ['1']) ∧
      IsId (quoted ['\\', 'n']) (.string ['\n']) ∧
      Answered (.ofList ['1']) (.string ['1']) ∧ ¬ Answered (.ofList ['1']) (.number ['1']) ∧
      idToString (.ofList ['1']) = idToString (quoted ['1']) ∧
      Answered (quoted ['\\', 'n']) (.string ['\\', 'n']) := by
  have integer : idToString (.ofList ['1']) = .ofList ['1'] := by
    rw [idToString_ofList (by decide)]
    decide
  have string : idToString (quoted ['1']) = .ofList ['1'] := by
    rw [quoted, idToString_ofList (by decide)]
    decide
  have escape : idToString (quoted ['\\', 'n']) = .ofList ['\\', 'n'] := by
    rw [quoted, idToString_ofList (by decide)]
    decide
  rw [answered_iff, answered_iff, answered_iff, integer, string, escape, String.toList_ofList,
    String.toList_ofList]
  exact ⟨.integer rfl, .string rfl, .string rfl, rfl, nofun, rfl, rfl⟩

end Lspd.Plugin
