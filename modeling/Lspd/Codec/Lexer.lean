import Mathlib.Data.List.Basic

/-! Splitting a json text into marks, words and strings. Outside of strings, white space
separates words and is dropped. -/

namespace Lspd.Codec

inductive Mark where
  | beginArray
  | endArray
  | beginObject
  | endObject
  | colon
  | comma
  deriving DecidableEq

def Mark.char : Mark → Char
  | .beginArray => '['
  | .endArray => ']'
  | .beginObject => '{'
  | .endObject => '}'
  | .colon => ':'
  | .comma => ','

/-- What a character is to the lexer. -/
inductive Kind where
  | space
  | mark (mark : Mark)
  | quote
  | escape
  | other
  deriving DecidableEq

def kind (char : Char) : Kind :=
  if char = ' ' ∨ char = '\t' ∨ char = '\n' ∨ char = '\r' then .space
  else if char = '[' then .mark .beginArray
  else if char = ']' then .mark .endArray
  else if char = '{' then .mark .beginObject
  else if char = '}' then .mark .endObject
  else if char = ':' then .mark .colon
  else if char = ',' then .mark .comma
  else if char = '"' then .quote
  else if char = '\\' then .escape
  else .other

@[simp] theorem kind_mark (mark : Mark) : kind mark.char = .mark mark := by cases mark <;> rfl

@[simp] theorem kind_quote : kind '"' = .quote := rfl

@[simp] theorem kind_escape : kind '\\' = .escape := rfl

/-- The characters that are not part of words. -/
def specials : List Char :=
  [' ', '\t', '\n', '\r', '[', ']', '{', '}', ':', ',', '"', '\\']

/-- What is checked for the special characters holds for all that have their kind. -/
theorem of_special {property : Char → Bool} (checked : specials.all property = true) {char : Char}
    (special : kind char ≠ .other) : property char = true := by
  have member : char ∈ specials := by
    by_contra ordinary
    simp only [specials, List.mem_cons, List.not_mem_nil, or_false, not_or] at ordinary
    exact special (by simp only [kind, ordinary, or_false, if_false])
  exact List.all_eq_true.mp checked char member

theorem eq_quote_of_kind {char : Char} (same : kind char = .quote) : char = '"' := by
  have special : kind char ≠ .other := by simp [same]
  have checked : specials.all (fun char => kind char = .quote → char = '"') = true := by decide
  exact of_decide_eq_true (of_special checked special) same

theorem eq_escape_of_kind {char : Char} (same : kind char = .escape) : char = '\\' := by
  have special : kind char ≠ .other := by simp [same]
  have checked : specials.all (fun char => kind char = .escape → char = '\\') = true := by decide
  exact of_decide_eq_true (of_special checked special) same

/-- The symbols texts are made of. They are characters, or something the lexer takes
for a character. -/
structure Alphabet (Symbol : Type) where
  view : Symbol → Char
  ofChar : Char → Symbol
  view_ofChar : ∀ char, view (ofChar char) = char

attribute [simp] Alphabet.view_ofChar

/-- Texts of characters. -/
def Alphabet.char : Alphabet Char := ⟨id, id, fun _ => rfl⟩

@[simp] theorem Alphabet.char_view : Alphabet.char.view = id := rfl

@[simp] theorem Alphabet.char_ofChar : Alphabet.char.ofChar = id := rfl

inductive Lexeme (Symbol : Type) where
  | mark (mark : Mark)
  | word (symbols : List Symbol)
  | string (raw : List Symbol)
  deriving DecidableEq

/-- What was read of the lexeme at hand: a word, if not empty, or a string up to
here, where an escape may wait for the symbol it belongs to. -/
inductive Pending (Symbol : Type) where
  | outside (word : List Symbol)
  | string (raw : List Symbol)
  | escaped (raw : List Symbol)

namespace Alphabet

variable {Symbol : Type} (A : Alphabet Symbol)

def flush : List Symbol → List (Lexeme Symbol)
  | [] => []
  | word => [.word word]

def step (pending : Pending Symbol) (symbol : Symbol) : List (Lexeme Symbol) × Pending Symbol :=
  match pending, kind (A.view symbol) with
  | .outside word, .space => (flush word, .outside [])
  | .outside word, .mark mark => (flush word ++ [.mark mark], .outside [])
  | .outside word, .quote => (flush word, .string [])
  | .outside word, .escape => ([], .outside (word ++ [symbol]))
  | .outside word, .other => ([], .outside (word ++ [symbol]))
  | .string raw, .quote => ([.string raw], .outside [])
  | .string raw, .escape => ([], .escaped (raw ++ [symbol]))
  | .string raw, _ => ([], .string (raw ++ [symbol]))
  | .escaped raw, _ => ([], .string (raw ++ [symbol]))

def run (pending : Pending Symbol) : List Symbol → List (Lexeme Symbol) × Pending Symbol
  | [] => ([], pending)
  | symbol :: rest =>
    let (out, next) := A.step pending symbol
    let (more, last) := run next rest
    (out ++ more, last)

/-- The lexemes of a text, unless it ends within a string. -/
def lex (text : List Symbol) : Option (List (Lexeme Symbol)) :=
  match A.run (.outside []) text with
  | (out, .outside word) => some (out ++ flush word)
  | _ => none

def renderLexeme : Lexeme Symbol → List Symbol
  | .mark mark => [A.ofChar mark.char]
  | .word symbols => symbols
  | .string raw => A.ofChar '"' :: (raw ++ [A.ofChar '"'])

/-- The lexemes without anything between them. -/
def render (lexemes : List (Lexeme Symbol)) : List Symbol := lexemes.flatMap A.renderLexeme

section compose

variable {A}

theorem run_append (pending : Pending Symbol) (one two : List Symbol) :
    A.run pending (one ++ two) =
      ((A.run pending one).1 ++ (A.run (A.run pending one).2 two).1,
        (A.run (A.run pending one).2 two).2) := by
  induction one generalizing pending with
  | nil => rfl
  | cons symbol rest ih => simp [run, ih]

theorem lex_eq_some {text : List Symbol} {lexemes : List (Lexeme Symbol)} :
    A.lex text = some lexemes ↔
      ∃ out word, A.run (.outside []) text = (out, .outside word) ∧ out ++ flush word = lexemes := by
  unfold lex
  split
  · rename_i out word ran
    simp [ran]
  · rename_i other
    constructor
    · nofun
    · rintro ⟨out, word, ran, _⟩
      exact absurd ran (other out word)

/-- A mark separates what stands on its two sides. -/
theorem lex_mark {before after : List Symbol} {symbol : Symbol} {mark : Mark}
    {one two : List (Lexeme Symbol)} (left : A.lex before = some one)
    (middle : kind (A.view symbol) = .mark mark) (right : A.lex after = some two) :
    A.lex (before ++ symbol :: after) = some (one ++ .mark mark :: two) := by
  obtain ⟨out, word, ran, rfl⟩ := lex_eq_some.mp left
  obtain ⟨more, last, continued, rfl⟩ := lex_eq_some.mp right
  refine lex_eq_some.mpr ⟨out ++ (flush word ++ [.mark mark] ++ more), last, ?_, by simp⟩
  simp [run_append, ran, run, step, middle, continued]

end compose

section roundTrip

variable {A}

/-- The inside of a string, up to the quote that ends it. -/
def Closed (A : Alphabet Symbol) (raw : List Symbol) : Prop :=
  ∀ before, A.run (.string before) raw = ([], .string (before ++ raw))

theorem closed_nil : A.Closed [] := fun before => by simp [run]

theorem Closed.append {one two : List Symbol} (first : A.Closed one) (second : A.Closed two) :
    A.Closed (one ++ two) := by
  intro before
  simp [run_append, first before, second (before ++ one)]

theorem closed_plain {symbol : Symbol} (quote : A.view symbol ≠ '"')
    (escape : A.view symbol ≠ '\\') : A.Closed [symbol] := by
  intro before
  have kinds : kind (A.view symbol) ≠ .quote ∧ kind (A.view symbol) ≠ .escape :=
    ⟨fun same => quote (eq_quote_of_kind same), fun same => escape (eq_escape_of_kind same)⟩
  cases same : kind (A.view symbol) <;> simp_all [run, step]

theorem closed_escaped {escape symbol : Symbol} (first : A.view escape = '\\') :
    A.Closed [escape, symbol] := by
  intro before
  simp [run, step, first]

/-- Lexemes that can be told from their text. -/
def Sound (A : Alphabet Symbol) : Lexeme Symbol → Prop
  | .mark _ => True
  | .word symbols => symbols ≠ [] ∧ ∀ symbol ∈ symbols, kind (A.view symbol) = .other
  | .string raw => A.Closed raw

end roundTrip

end Alphabet

/-- No two words stand side by side. -/
def Separated {Symbol : Type} (lexemes : List (Lexeme Symbol)) : Prop :=
  lexemes.IsChain fun one two => ∀ first second, one = .word first → two ≠ .word second

namespace Alphabet

variable {Symbol : Type} {A : Alphabet Symbol}

theorem run_word {symbols : List Symbol} (word : List Symbol)
    (plain : ∀ symbol ∈ symbols, kind (A.view symbol) = .other) :
    A.run (.outside word) symbols = ([], .outside (word ++ symbols)) := by
  induction symbols generalizing word with
  | nil => simp [run]
  | cons symbol rest ih =>
    have here := plain symbol (.head _)
    have later := ih (word ++ [symbol]) fun other member => plain other (.tail _ member)
    simp [run, step, here, later]

/-- Rendered lexemes behind a word that has ended, or that they end. -/
theorem run_render {lexemes : List (Lexeme Symbol)} (sound : ∀ lexeme ∈ lexemes, A.Sound lexeme)
    (separated : Separated lexemes) {word : List Symbol}
    (ended : ∀ first rest, lexemes = .word first :: rest → word = []) :
    ∃ out last, A.run (.outside word) (A.render lexemes) = (out, .outside last) ∧
      out ++ flush last = flush word ++ lexemes := by
  induction lexemes generalizing word with
  | nil => exact ⟨[], word, rfl, by simp⟩
  | cons lexeme rest ih =>
    have here := sound lexeme (.head _)
    have later (word : List Symbol) := @ih (fun other member => sound other (.tail _ member))
      separated.of_cons word
    cases lexeme with
    | mark mark =>
      obtain ⟨out, last, ran, lexed⟩ := later [] fun _ _ _ => rfl
      refine ⟨flush word ++ [.mark mark] ++ out, last, ?_, by simpa [flush] using lexed⟩
      change A.run _ (A.ofChar mark.char :: A.render rest) = _
      simp [run, step, ran]
    | word symbols =>
      obtain rfl := ended symbols rest rfl
      have next : ∀ first more, rest = .word first :: more → symbols = [] := by
        rintro first more rfl
        exact absurd rfl ((List.isChain_cons_cons.mp separated).1 _ _ rfl)
      obtain ⟨out, last, ran, lexed⟩ := later symbols next
      refine ⟨out, last, ?_, ?_⟩
      · change A.run _ (symbols ++ A.render rest) = _
        simp [run_append, run_word [] here.2, ran]
      · obtain ⟨first, more, rfl⟩ := List.exists_cons_of_ne_nil here.1
        simpa [flush] using lexed
    | string raw =>
      obtain ⟨out, last, ran, lexed⟩ := later [] fun _ _ _ => rfl
      refine ⟨flush word ++ .string raw :: out, last, ?_, by simpa [flush] using lexed⟩
      have inside : A.run (.string []) raw = ([], .string raw) := here []
      change A.run _ (A.ofChar '"' :: (raw ++ [A.ofChar '"'] ++ A.render rest)) = _
      simp [run, run_append, step, inside, ran]

/-- The lexer undoes rendering. -/
theorem lex_render {lexemes : List (Lexeme Symbol)} (sound : ∀ lexeme ∈ lexemes, A.Sound lexeme)
    (separated : Separated lexemes) : A.lex (A.render lexemes) = some lexemes := by
  obtain ⟨out, last, ran, lexed⟩ := @run_render _ _ _ sound separated [] fun _ _ _ => rfl
  exact lex_eq_some.mpr ⟨out, last, ran, lexed⟩

end Alphabet

end Lspd.Codec
