import Lspd.Codec.Compaction
import Lspd.Codec.Objects
import Lspd.Common.OpeningService

/-! What the plugin uses of `encoding/json`: strings, whole texts, and raw messages that
become part of other texts. -/

namespace Lspd.Plugin

open Lspd.Codec Lspd.Common

section strings

/-- A Go string is a sequence of characters and of bytes that do not belong to one. -/
inductive Rune where
  | char (char : Char)
  | stray (byte : UInt8)
  deriving DecidableEq

abbrev GoString := List Rune

/-- `encoding/json` takes a stray byte for the replacement character. -/
def runes : Alphabet Rune where
  view
    | .char char => char
    | .stray _ => replacement
  ofChar := .char
  view_ofChar _ := rfl

def goString (text : String) : GoString := text.toList.map .char

def Rune.isChar : Rune → Bool
  | .char _ => true
  | .stray _ => false

/-- The bytes of the string are valid UTF-8. -/
def isUnicode (text : GoString) : Bool := text.all Rune.isChar

def escapeRune : Rune → GoString
  | .char char => (escapeChar char).map .char
  | .stray _ => (Codec.unicodeEscape replacement.toNat).map .char

/-- `json.Marshal` of a string. -/
def marshalText (text : GoString) : GoString :=
  .char '"' :: (text.flatMap escapeRune ++ [.char '"'])

/-- The depth at which `encoding/json` gives up. -/
def maxNestingDepth : Nat := 10000

/-- The value `json.Unmarshal` finds in a text. -/
def unmarshal (text : GoString) : Option Json :=
  if runes.depth text ≤ maxNestingDepth then runes.parse text else none

/-- `json.Marshal` of a raw message. -/
def marshalRaw (text : GoString) : Option GoString :=
  if (unmarshal text).isSome then runes.compact text else none

/-- A raw message as `json.Unmarshal` makes it from a request. -/
structure RawMessage where
  text : GoString
  value : Json
  parsed : unmarshal text = some value
  unicode : isUnicode text = true

end strings

section texts

theorem isUnicode_iff {text : GoString} : isUnicode text = true ↔ ∀ rune ∈ text, rune.isChar = true :=
  List.all_eq_true

@[simp] theorem view_goString (text : String) : (goString text).map runes.view = text.toList := by
  simp [goString, Function.comp_def, runes]

theorem isUnicode_goString (text : String) : isUnicode (goString text) = true := by
  simp [isUnicode_iff, goString, Rune.isChar]

theorem isUnicode_objectText {members : List (Alphabet.Member Rune)}
    (parts : ∀ member ∈ members, isUnicode member.1 = true ∧ isUnicode member.2 = true) :
    isUnicode (runes.objectText members) = true := by
  rw [isUnicode_iff]
  refine Alphabet.forall_objectText (fun _ _ => rfl) ?_
  intro member among
  exact (parts member among).imp isUnicode_iff.mp isUnicode_iff.mp

theorem unbroken_objectText {members : List (Alphabet.Member Rune)}
    (parts : ∀ member ∈ members, .char '\n' ∉ member.1 ∧ .char '\n' ∉ member.2) :
    .char '\n' ∉ runes.objectText members := by
  have others : ∀ rune ∈ runes.objectText members, rune ≠ .char '\n' := by
    refine Alphabet.forall_objectText (by simp [runes]) ?_
    intro member among
    obtain ⟨key, value⟩ := parts member among
    exact ⟨fun _ inside same => key (same ▸ inside), fun _ inside same => value (same ▸ inside)⟩
  exact fun member => others _ member rfl

theorem view_escapeRune (text : String) :
    ((goString text).flatMap escapeRune).map runes.view = text.toList.flatMap escapeChar := by
  have one (char : Char) : (escapeRune (.char char)).map runes.view = escapeChar char := by
    simp [escapeRune, runes, Function.comp_def]
  simp [goString, List.map_flatMap, List.flatMap_map, one]

theorem parse_marshalText (text : String) :
    runes.parse (marshalText (goString text)) = some (.string text.toList) := by
  have known : runes.token (.string ((goString text).flatMap escapeRune)) =
      some (.atom (.string text.toList)) := by
    rw [Alphabet.token, view_escapeRune, unquote_escape]
    rfl
  have rendered : marshalText (goString text) =
      runes.renderLexeme (.string ((goString text).flatMap escapeRune)) := rfl
  rw [rendered]
  exact Alphabet.parse_renderLexeme known

theorem isUnicode_marshalText (text : String) : isUnicode (marshalText (goString text)) = true := by
  have escaped (char : Char) : ∀ rune ∈ escapeRune (.char char), rune.isChar = true := by
    simp [escapeRune, Rune.isChar]
  rw [isUnicode_iff]
  intro rune member
  simp only [marshalText, List.mem_cons, List.mem_append, List.mem_flatMap, goString,
    List.mem_map] at member
  rcases member with rfl | ⟨_, ⟨char, _, rfl⟩, inside⟩ | rfl | none
  · rfl
  · exact escaped char rune inside
  · rfl
  · cases none

/-- A member with a fixed key. -/
theorem means_goString {key : String} {text : GoString} {value : Json}
    (ordinary : key.toList.all plain = true) (parsed : runes.parse text = some value) :
    runes.Means (goString key, text) (key.toList, value) where
  key := by rw [view_goString, unquote_of_plain ordinary]
  value := parsed

end texts

section raw

variable {text out : GoString} {value : Json}

theorem isUnicode_compact (compacted : runes.compact text = some out) :
    isUnicode out = true ↔ isUnicode text = true := by
  rw [isUnicode_iff, isUnicode_iff]
  constructor
  · intro plain rune member
    cases rune with
    | char char => rfl
    | stray byte => exact plain _ (Alphabet.mem_compact compacted member rfl rfl)
  · intro plain rune member
    rcases Alphabet.mem_of_mem_compact compacted member with before | ⟨char, rfl⟩
    · exact plain rune before
    · rfl

theorem unmarshal_eq_some : unmarshal text = some value ↔
    runes.depth text ≤ maxNestingDepth ∧ runes.parse text = some value := by
  simp [unmarshal]

theorem exists_marshalRaw (parsed : unmarshal text = some value) :
    ∃ out, marshalRaw text = some out := by
  obtain ⟨out, compacted, _⟩ := Alphabet.parse_compact (unmarshal_eq_some.mp parsed).2
  exact ⟨out, by simp [marshalRaw, parsed, compacted]⟩

/-- A raw message is written with the same value, on one line and in the same encoding. -/
theorem marshalRaw_spec (marshalled : marshalRaw text = some out) :
    .char '\n' ∉ out ∧ (isUnicode out = true ↔ isUnicode text = true) ∧
      ∃ value, unmarshal text = some value ∧ runes.parse out = some value := by
  unfold marshalRaw at marshalled
  split_ifs at marshalled with accepted
  obtain ⟨value, parsed⟩ := Option.isSome_iff_exists.mp accepted
  obtain ⟨other, compacted, same, unbroken⟩ :=
    Alphabet.parse_compact (unmarshal_eq_some.mp parsed).2
  obtain rfl := Option.some.inj (compacted.symm.trans marshalled)
  exact ⟨fun member => unbroken _ member rfl, isUnicode_compact compacted, value, parsed, same⟩

end raw

end Lspd.Plugin
