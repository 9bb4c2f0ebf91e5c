import Lspd.Codec.Json

/-! Json texts without white space, as they are put into other texts. -/

namespace Lspd.Codec

namespace Alphabet

variable {Symbol : Type} (A : Alphabet Symbol)

def htmlEscapeLexeme : Lexeme Symbol → Lexeme Symbol
  | .string raw => .string (raw.flatMap (htmlEscape A))
  | other => other

/-- A text without white space and with no html in its strings. -/
def compact (text : List Symbol) : Option (List Symbol) :=
  (A.lex text).map fun lexemes => A.render (lexemes.map A.htmlEscapeLexeme)

end Alphabet

section values

variable {Symbol : Type} {A : Alphabet Symbol} {lexemes : List (Lexeme Symbol)}
  {parser next : Parser}

namespace Alphabet

theorem token_htmlEscapeLexeme {lexeme : Lexeme Symbol} {token : Token}
    (known : A.token lexeme = some token) : A.token (A.htmlEscapeLexeme lexeme) = some token := by
  cases lexeme with
  | mark mark => exact known
  | word symbols => exact known
  | string raw =>
    obtain ⟨text, read, rfl⟩ := Option.map_eq_some_iff.mp known
    obtain ⟨found, spells, rfl⟩ := spells_of_unquote read
    rw [htmlEscapeLexeme, Alphabet.token, map_htmlEscape, spells.htmlEscape.unquote]
    rfl

theorem read_htmlEscape (done : A.read parser lexemes = some next) :
    A.read parser (lexemes.map A.htmlEscapeLexeme) = some next := by
  induction lexemes generalizing parser with
  | nil => exact done
  | cons lexeme rest ih =>
    obtain ⟨token, middle, known, stepped, done⟩ := read_cons.mp done
    exact read_cons.mpr ⟨token, middle, token_htmlEscapeLexeme known, stepped, ih done⟩

/-- Compaction keeps the value and leaves a single line. -/
theorem parse_compact {text : List Symbol} {value : Json} (parsed : A.parse text = some value) :
    ∃ out, A.compact text = some out ∧ A.parse out = some value ∧
      ∀ symbol ∈ out, A.view symbol ≠ '\n' := by
  obtain ⟨lexemes, lexed, done⟩ := parse_eq_some.mp parsed
  have escaped := read_htmlEscape done
  refine ⟨_, by rw [compact, lexed]; rfl, ?_, unbroken_of_read escaped⟩
  exact parse_eq_some.mpr
    ⟨_, lex_render (sound_of_read escaped) (separated_of_read escaped), escaped⟩

end Alphabet

end values

section symbols

variable {Symbol : Type} {A : Alphabet Symbol}

def Lexeme.contents : Lexeme Symbol → List Symbol
  | .mark _ => []
  | .word symbols => symbols
  | .string raw => raw

def Pending.contents : Pending Symbol → List Symbol
  | .outside word => word
  | .string raw => raw
  | .escaped raw => raw

/-- All the symbols in what was read and in what is pending. -/
def held (read : List (Lexeme Symbol) × Pending Symbol) : List Symbol :=
  read.1.flatMap Lexeme.contents ++ read.2.contents

namespace Alphabet

theorem contents_flush (word : List Symbol) : (flush word).flatMap Lexeme.contents = word := by
  cases word <;> simp [flush, Lexeme.contents]

/-- A step holds on to what it has, and to the symbol it reads unless that one is special. -/
theorem held_step (A : Alphabet Symbol) (pending : Pending Symbol) (symbol : Symbol) :
    held (A.step pending symbol) = pending.contents ∨
      held (A.step pending symbol) = pending.contents ++ [symbol] := by
  cases pending <;> cases same : kind (A.view symbol) <;>
    simp [held, step, same, contents_flush, Pending.contents, Lexeme.contents]

theorem held_step_other (pending : Pending Symbol) {symbol : Symbol}
    (plain : kind (A.view symbol) = .other) :
    held (A.step pending symbol) = pending.contents ++ [symbol] := by
  cases pending <;> simp [held, step, plain, Pending.contents]

theorem held_run_cons (pending : Pending Symbol) (first : Symbol) (rest : List Symbol) :
    held (A.run pending (first :: rest)) =
      (A.step pending first).1.flatMap Lexeme.contents ++
        held (A.run (A.step pending first).2 rest) := by
  simp [held, run]

theorem mem_of_mem_held {pending : Pending Symbol} {text : List Symbol} {symbol : Symbol}
    (member : symbol ∈ held (A.run pending text)) : symbol ∈ pending.contents ∨ symbol ∈ text := by
  induction text generalizing pending with
  | nil => simpa [held, run] using member
  | cons first rest ih =>
    have kept : symbol ∈ held (A.step pending first) ∨ symbol ∈ rest := by
      rw [held_run_cons] at member
      rcases List.mem_append.mp member with emitted | later
      · exact .inl (List.mem_append_left _ emitted)
      · exact (ih later).imp_left (List.mem_append_right _)
    rcases A.held_step pending first with same | same
    · rw [same] at kept
      exact kept.imp_right (.tail _)
    · rw [same, List.mem_append, List.mem_singleton] at kept
      rw [List.mem_cons]
      tauto

theorem mem_held {pending : Pending Symbol} {text : List Symbol} {symbol : Symbol}
    (plain : kind (A.view symbol) = .other)
    (member : symbol ∈ pending.contents ∨ symbol ∈ text) :
    symbol ∈ held (A.run pending text) := by
  induction text generalizing pending with
  | nil => simpa [held, run] using member
  | cons first rest ih =>
    have kept : symbol ∈ held (A.step pending first) ∨ symbol ∈ rest := by
      rcases member with before | member
      · rcases A.held_step pending first with same | same
        · exact .inl (same ▸ before)
        · exact .inl (same ▸ List.mem_append_left _ before)
      · rcases List.mem_cons.mp member with rfl | later
        · exact .inl (held_step_other pending plain ▸ by simp)
        · exact .inr later
    rw [held_run_cons]
    rcases kept with here | later
    · rcases List.mem_append.mp here with emitted | pending
      · exact List.mem_append_left _ emitted
      · exact List.mem_append_right _ (ih (.inl pending))
    · exact List.mem_append_right _ (ih (.inr later))

theorem contents_of_lex {text : List Symbol} {lexemes : List (Lexeme Symbol)}
    (lexed : A.lex text = some lexemes) :
    lexemes.flatMap Lexeme.contents = held (A.run (.outside []) text) := by
  obtain ⟨out, word, ran, rfl⟩ := lex_eq_some.mp lexed
  simp [ran, held, contents_flush, Pending.contents]

theorem contents_htmlEscapeLexeme (lexeme : Lexeme Symbol) {symbol : Symbol}
    (kept : symbol ∈ A.renderLexeme (A.htmlEscapeLexeme lexeme)) :
    symbol ∈ lexeme.contents ∨ ∃ char, symbol = A.ofChar char := by
  cases lexeme with
  | mark mark => exact .inr ⟨mark.char, List.mem_singleton.mp kept⟩
  | word symbols => exact .inl kept
  | string raw =>
    rcases List.mem_cons.mp kept with quote | kept
    · exact .inr ⟨_, quote⟩
    · rcases List.mem_append.mp kept with kept | quote
      · obtain ⟨first, among, kept⟩ := List.mem_flatMap.mp kept
        unfold htmlEscape at kept
        split at kept
        · obtain ⟨char, _, rfl⟩ := List.mem_map.mp kept
          exact .inr ⟨char, rfl⟩
        · exact .inl (List.mem_singleton.mp kept ▸ among)
      · exact .inr ⟨_, List.mem_singleton.mp quote⟩

/-- The symbols of a compact text are those of the text, or plain characters. -/
theorem mem_of_mem_compact {text out : List Symbol} (compacted : A.compact text = some out)
    {symbol : Symbol} (member : symbol ∈ out) :
    symbol ∈ text ∨ ∃ char, symbol = A.ofChar char := by
  obtain ⟨lexemes, lexed, rfl⟩ := Option.map_eq_some_iff.mp compacted
  obtain ⟨escaped, among, inside⟩ := List.mem_flatMap.mp member
  obtain ⟨lexeme, read, rfl⟩ := List.mem_map.mp among
  refine (contents_htmlEscapeLexeme lexeme inside).imp_left ?_
  intro content
  have held : symbol ∈ held (A.run (.outside []) text) := by
    rw [← contents_of_lex lexed]
    exact List.mem_flatMap.mpr ⟨lexeme, read, content⟩
  simpa [Pending.contents] using mem_of_mem_held held

/-- No symbol is lost, unless it is special. -/
theorem mem_compact {text out : List Symbol} (compacted : A.compact text = some out)
    {symbol : Symbol} (member : symbol ∈ text) (plain : kind (A.view symbol) = .other)
    (insensitive : htmlSensitive (A.view symbol) = false) : symbol ∈ out := by
  obtain ⟨lexemes, lexed, rfl⟩ := Option.map_eq_some_iff.mp compacted
  have inside : symbol ∈ lexemes.flatMap Lexeme.contents := by
    rw [contents_of_lex lexed]
    exact mem_held plain (.inr member)
  obtain ⟨lexeme, among, content⟩ := List.mem_flatMap.mp inside
  refine List.mem_flatMap.mpr ⟨_, List.mem_map_of_mem among, ?_⟩
  cases lexeme with
  | mark mark => cases content
  | word symbols => exact content
  | string raw =>
    have kept : symbol ∈ raw.flatMap (htmlEscape A) :=
      List.mem_flatMap.mpr ⟨symbol, content, by simp [htmlEscape, insensitive]⟩
    exact .tail _ (List.mem_append_left _ kept)

end Alphabet

end symbols

end Lspd.Codec
