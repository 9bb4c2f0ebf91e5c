import Lspd.Codec.JsonString

/-! Json texts and the values they stand for. The parser is a stack machine over the
lexemes of a text. -/

namespace Lspd.Codec

/-- Numbers are kept as they are written. -/
inductive Json where
  | null
  | bool (value : Bool)
  | number (text : List Char)
  | string (text : List Char)
  | array (elements : List Json)
  | object (members : List (List Char × Json))

section numbers

/-- How far a number was read. -/
inductive Numeral where
  | start
  | sign
  | zero
  | integer
  | point
  | fraction
  | exponent
  | exponentSign
  | exponentDigits
  deriving DecidableEq

def Numeral.step (state : Numeral) (char : Char) : Option Numeral :=
  match state with
  | .start =>
    if char = '-' then some .sign
    else if char = '0' then some .zero
    else if char.isDigit then some .integer
    else none
  | .sign => if char = '0' then some .zero else if char.isDigit then some .integer else none
  | .zero =>
    if char = '.' then some .point
    else if char = 'e' ∨ char = 'E' then some .exponent
    else none
  | .integer =>
    if char.isDigit then some .integer
    else if char = '.' then some .point
    else if char = 'e' ∨ char = 'E' then some .exponent
    else none
  | .point => if char.isDigit then some .fraction else none
  | .fraction =>
    if char.isDigit then some .fraction
    else if char = 'e' ∨ char = 'E' then some .exponent
    else none
  | .exponent =>
    if char = '+' ∨ char = '-' then some .exponentSign
    else if char.isDigit then some .exponentDigits
    else none
  | .exponentSign => if char.isDigit then some .exponentDigits else none
  | .exponentDigits => if char.isDigit then some .exponentDigits else none

def Numeral.run (state : Numeral) : List Char → Option Numeral
  | [] => some state
  | char :: rest => (state.step char).bind fun next => next.run rest

def isInteger (text : List Char) : Bool :=
  match Numeral.start.run text with
  | some .zero => true
  | some .integer => true
  | _ => false

def isNumber (text : List Char) : Bool :=
  match Numeral.start.run text with
  | some .zero => true
  | some .integer => true
  | some .fraction => true
  | some .exponentDigits => true
  | _ => false

end numbers

inductive Token where
  | mark (mark : Mark)
  | atom (value : Json)

/-- A value that is not made of others. -/
def literal (text : List Char) : Option Json :=
  if text = ['n', 'u', 'l', 'l'] then some .null
  else if text = ['t', 'r', 'u', 'e'] then some (.bool true)
  else if text = ['f', 'a', 'l', 's', 'e'] then some (.bool false)
  else if isNumber text then some (.number text)
  else none

/-- An array or object that is not finished. -/
inductive Frame where
  | array (done : List Json)
  | object (done : List (List Char × Json))
  | member (done : List (List Char × Json)) (key : List Char)

/-- What may come next. -/
inductive Expected where
  | value
  | firstValue
  | key
  | firstKey
  | colon
  | after (value : Json)

structure Parser where
  expected : Expected
  stack : List Frame

def Parser.start : Parser := ⟨.value, []⟩

def Parser.step (parser : Parser) (token : Token) : Option Parser :=
  match parser.expected, token, parser.stack with
  | .value, .atom value, stack => some ⟨.after value, stack⟩
  | .value, .mark .beginArray, stack => some ⟨.firstValue, .array [] :: stack⟩
  | .value, .mark .beginObject, stack => some ⟨.firstKey, .object [] :: stack⟩
  | .firstValue, .atom value, stack => some ⟨.after value, stack⟩
  | .firstValue, .mark .beginArray, stack => some ⟨.firstValue, .array [] :: stack⟩
  | .firstValue, .mark .beginObject, stack => some ⟨.firstKey, .object [] :: stack⟩
  | .firstValue, .mark .endArray, .array done :: stack => some ⟨.after (.array done), stack⟩
  | .key, .atom (.string key), .object done :: stack => some ⟨.colon, .member done key :: stack⟩
  | .firstKey, .atom (.string key), .object done :: stack =>
    some ⟨.colon, .member done key :: stack⟩
  | .firstKey, .mark .endObject, .object done :: stack => some ⟨.after (.object done), stack⟩
  | .colon, .mark .colon, stack => some ⟨.value, stack⟩
  | .after value, .mark .comma, .array done :: stack =>
    some ⟨.value, .array (done ++ [value]) :: stack⟩
  | .after value, .mark .endArray, .array done :: stack =>
    some ⟨.after (.array (done ++ [value])), stack⟩
  | .after value, .mark .comma, .member done key :: stack =>
    some ⟨.key, .object (done ++ [(key, value)]) :: stack⟩
  | .after value, .mark .endObject, .member done key :: stack =>
    some ⟨.after (.object (done ++ [(key, value)])), stack⟩
  | _, _, _ => none

namespace Alphabet

variable {Symbol : Type} (A : Alphabet Symbol)

def token : Lexeme Symbol → Option Token
  | .mark mark => some (.mark mark)
  | .word symbols => (literal (symbols.map A.view)).map .atom
  | .string raw => (unquote (raw.map A.view)).map fun text => .atom (.string text)

def read (parser : Parser) : List (Lexeme Symbol) → Option Parser
  | [] => some parser
  | lexeme :: rest =>
    (A.token lexeme).bind fun token => (parser.step token).bind fun next => read next rest

/-- The value some lexemes stand for. -/
def value (lexemes : List (Lexeme Symbol)) : Option Json :=
  match A.read .start lexemes with
  | some ⟨.after value, []⟩ => some value
  | _ => none

/-- The value of a text, if it is a json text. -/
def parse (text : List Symbol) : Option Json := (A.lex text).bind A.value

end Alphabet

/-- How deep arrays and objects are nested behind the lexemes read so far. -/
def nesting {Symbol : Type} (depth : Nat) : List (Lexeme Symbol) → Nat
  | [] => depth
  | .mark .beginArray :: rest => nesting (depth + 1) rest
  | .mark .beginObject :: rest => nesting (depth + 1) rest
  | .mark .endArray :: rest => max depth (nesting (depth - 1) rest)
  | .mark .endObject :: rest => max depth (nesting (depth - 1) rest)
  | _ :: rest => nesting depth rest

def Alphabet.depth {Symbol : Type} (A : Alphabet Symbol) (text : List Symbol) : Nat :=
  ((A.lex text).map (nesting 0)).getD 0

section machine

variable {Symbol : Type} {A : Alphabet Symbol} {lexemes one two : List (Lexeme Symbol)}
  {parser next : Parser} {token : Token}

/-- What is deeper in the stack does not matter to a step. -/
theorem Parser.step_append (stepped : parser.step token = some next) (base : List Frame) :
    Parser.step ⟨parser.expected, parser.stack ++ base⟩ token =
      some ⟨next.expected, next.stack ++ base⟩ := by
  obtain ⟨expected, stack⟩ := parser
  simp only [Parser.step] at stepped
  split at stepped
  all_goals cases stepped
  all_goals rfl

namespace Alphabet

theorem read_append : A.read parser (one ++ two) = (A.read parser one).bind (A.read · two) := by
  induction one generalizing parser with
  | nil => rfl
  | cons lexeme rest ih =>
    simp only [List.cons_append, read, Option.bind_assoc, ih]

theorem read_append_of (done : A.read parser one = some next) :
    A.read parser (one ++ two) = A.read next two := by
  rw [read_append, done]
  rfl

theorem read_deeper (done : A.read parser lexemes = some next) (base : List Frame) :
    A.read ⟨parser.expected, parser.stack ++ base⟩ lexemes =
      some ⟨next.expected, next.stack ++ base⟩ := by
  induction lexemes generalizing parser with
  | nil =>
    obtain rfl := Option.some.inj done
    rfl
  | cons lexeme rest ih =>
    obtain ⟨token, known, done⟩ := Option.bind_eq_some_iff.mp done
    obtain ⟨middle, stepped, done⟩ := Option.bind_eq_some_iff.mp done
    simp [read, known, Parser.step_append stepped base, ih done]

theorem value_eq_some {value : Json} :
    A.value lexemes = some value ↔ A.read .start lexemes = some ⟨.after value, []⟩ := by
  unfold Alphabet.value
  split
  · rename_i found same
    simp [same]
  · rename_i other
    constructor
    · nofun
    · exact fun same => absurd same (other value)

theorem parse_eq_some {text : List Symbol} {value : Json} :
    A.parse text = some value ↔
      ∃ lexemes, A.lex text = some lexemes ∧ A.read .start lexemes = some ⟨.after value, []⟩ := by
  simp only [parse, Option.bind_eq_some_iff, value_eq_some]

/-- A value within others. -/
theorem read_value {value : Json} (read : A.read .start lexemes = some ⟨.after value, []⟩)
    (base : List Frame) : A.read ⟨.value, base⟩ lexemes = some ⟨.after value, base⟩ :=
  read_deeper read base

end Alphabet

end machine

section words

variable {Symbol : Type} {A : Alphabet Symbol}

theorem kind_of_isDigit {char : Char} (digit : char.isDigit = true) : kind char = .other := by
  by_contra special
  have checked : specials.all (fun char => !char.isDigit) = true := by decide
  simpa [digit] using of_special checked special

theorem Numeral.kind_of_step {state next : Numeral} {char : Char}
    (stepped : state.step char = some next) : kind char = .other := by
  by_contra special
  have digit : char.isDigit = false := by
    rw [← Bool.not_eq_true]
    exact fun digit => special (kind_of_isDigit digit)
  have minus : char ≠ '-' := by rintro rfl; exact special rfl
  have plus : char ≠ '+' := by rintro rfl; exact special rfl
  have zero : char ≠ '0' := by rintro rfl; exact special rfl
  have point : char ≠ '.' := by rintro rfl; exact special rfl
  have lower : char ≠ 'e' := by rintro rfl; exact special rfl
  have upper : char ≠ 'E' := by rintro rfl; exact special rfl
  cases state <;> simp [Numeral.step, digit, minus, plus, zero, point, lower, upper] at stepped

theorem Numeral.kind_of_run {state last : Numeral} {text : List Char}
    (ran : state.run text = some last) : ∀ char ∈ text, kind char = .other := by
  induction text generalizing state with
  | nil => simp
  | cons char rest ih =>
    obtain ⟨next, stepped, ran⟩ := Option.bind_eq_some_iff.mp ran
    simpa [Numeral.kind_of_step stepped] using ih ran

theorem isNumber_sound {text : List Char} (number : isNumber text = true) :
    text ≠ [] ∧ ∀ char ∈ text, kind char = .other := by
  constructor
  · rintro rfl
    cases number
  · unfold isNumber at number
    split at number
    all_goals first | exact Numeral.kind_of_run ‹_› | cases number

theorem literal_integer {digits : List Char} (number : isInteger digits = true) :
    literal digits = some (.number digits) := by
  have isNumber : isNumber digits = true := by
    unfold isInteger at number
    unfold Codec.isNumber
    split at number <;> simp_all
  have null : digits ≠ ['n', 'u', 'l', 'l'] := by
    rintro rfl
    cases number
  have true : digits ≠ ['t', 'r', 'u', 'e'] := by
    rintro rfl
    cases number
  have false : digits ≠ ['f', 'a', 'l', 's', 'e'] := by
    rintro rfl
    cases number
  simp [literal, null, true, false, isNumber]

/-- A word that stands for a value is not a string, and nothing in it is special. -/
theorem literal_sound {text : List Char} {value : Json} (known : literal text = some value) :
    (text ≠ [] ∧ ∀ char ∈ text, kind char = .other) ∧ ∀ inside, value ≠ .string inside := by
  unfold literal at known
  split_ifs at known with null true false number
  · cases known
    subst null
    exact ⟨⟨List.cons_ne_nil _ _, by simp [kind]⟩, by simp⟩
  · cases known
    subst true
    exact ⟨⟨List.cons_ne_nil _ _, by simp [kind]⟩, by simp⟩
  · cases known
    subst false
    exact ⟨⟨List.cons_ne_nil _ _, by simp [kind]⟩, by simp⟩
  · cases known
    exact ⟨isNumber_sound number, by simp⟩

namespace Alphabet

theorem sound_of_token {lexeme : Lexeme Symbol} {token : Token}
    (known : A.token lexeme = some token) : A.Sound lexeme := by
  cases lexeme with
  | mark mark => trivial
  | word symbols =>
    obtain ⟨value, literal, rfl⟩ := Option.map_eq_some_iff.mp known
    obtain ⟨nonempty, plain⟩ := (literal_sound literal).1
    exact ⟨fun empty => nonempty (by rw [empty]; rfl),
      fun symbol member => plain _ (List.mem_map_of_mem member)⟩
  | string raw =>
    obtain ⟨text, read, rfl⟩ := Option.map_eq_some_iff.mp known
    obtain ⟨found, spells, rfl⟩ := spells_of_unquote read
    exact spells.closed

end Alphabet

end words

section reading

variable {Symbol : Type} {A : Alphabet Symbol} {lexemes : List (Lexeme Symbol)}
  {parser next : Parser}

namespace Alphabet

theorem read_cons {lexeme : Lexeme Symbol} {rest : List (Lexeme Symbol)} :
    A.read parser (lexeme :: rest) = some next ↔ ∃ token middle, A.token lexeme = some token ∧
      parser.step token = some middle ∧ A.read middle rest = some next := by
  simp only [read, Option.bind_eq_some_iff]
  tauto

theorem sound_of_read (done : A.read parser lexemes = some next) :
    ∀ lexeme ∈ lexemes, A.Sound lexeme := by
  induction lexemes generalizing parser with
  | nil => simp
  | cons lexeme rest ih =>
    obtain ⟨token, middle, known, _, done⟩ := read_cons.mp done
    simpa [sound_of_token known] using ih done

/-- Behind a word, a value is complete. -/
theorem after_of_word {symbols : List Symbol} {token : Token}
    (known : A.token (.word symbols) = some token) (stepped : parser.step token = some next) :
    ∃ value stack, next = ⟨.after value, stack⟩ := by
  obtain ⟨value, literal, rfl⟩ := Option.map_eq_some_iff.mp known
  have other := (literal_sound literal).2
  obtain ⟨expected, stack⟩ := parser
  cases expected with
  | value => exact ⟨value, stack, (Option.some.inj stepped).symm⟩
  | firstValue => exact ⟨value, stack, (Option.some.inj stepped).symm⟩
  | key => cases value <;> first | cases stepped | exact absurd rfl (other _)
  | firstKey => cases value <;> first | cases stepped | exact absurd rfl (other _)
  | colon => cases stepped
  | after => cases stepped

theorem separated_of_read (done : A.read parser lexemes = some next) : Separated lexemes := by
  induction lexemes generalizing parser with
  | nil => exact .nil
  | cons lexeme rest ih =>
    obtain ⟨token, middle, known, stepped, done⟩ := read_cons.mp done
    cases rest with
    | nil => exact .singleton _
    | cons second more =>
      refine List.isChain_cons_cons.mpr ⟨?_, ih done⟩
      rintro first other rfl rfl
      obtain ⟨value, stack, rfl⟩ := after_of_word known stepped
      obtain ⟨token, _, known, stepped, _⟩ := read_cons.mp done
      obtain ⟨value, literal, rfl⟩ := Option.map_eq_some_iff.mp known
      cases stepped

theorem unbroken_of_token {lexeme : Lexeme Symbol} {token : Token}
    (known : A.token lexeme = some token) :
    ∀ symbol ∈ A.renderLexeme lexeme, A.view symbol ≠ '\n' := by
  cases lexeme with
  | mark mark => cases mark <;> simp [renderLexeme, Mark.char]
  | word symbols =>
    intro symbol member same
    have plain := (sound_of_token known).2 symbol member
    rw [same] at plain
    cases plain
  | string raw =>
    obtain ⟨text, read, rfl⟩ := Option.map_eq_some_iff.mp known
    obtain ⟨found, spells, rfl⟩ := spells_of_unquote read
    have inside : ∀ symbol ∈ raw, A.view symbol ≠ '\n' := by
      intro symbol member same
      have printable := spells.printable _ (List.mem_map_of_mem member)
      rw [same] at printable
      exact absurd printable (by decide)
    intro symbol member
    rcases List.mem_cons.mp member with rfl | member
    · simp
    · rcases List.mem_append.mp member with member | last
      · exact inside symbol member
      · obtain rfl := List.mem_singleton.mp last
        simp

theorem unbroken_of_read (done : A.read parser lexemes = some next) :
    ∀ symbol ∈ A.render lexemes, A.view symbol ≠ '\n' := by
  induction lexemes generalizing parser with
  | nil => simp [render]
  | cons lexeme rest ih =>
    obtain ⟨token, middle, known, _, done⟩ := read_cons.mp done
    intro symbol member
    rcases List.mem_append.mp member with here | later
    · exact unbroken_of_token known symbol here
    · exact ih done symbol later

/-- A text that is a single value. -/
theorem parse_renderLexeme {lexeme : Lexeme Symbol} {value : Json}
    (known : A.token lexeme = some (.atom value)) :
    A.parse (A.renderLexeme lexeme) = some value := by
  have read : A.read .start [lexeme] = some ⟨.after value, []⟩ :=
    read_cons.mpr ⟨_, _, known, rfl, rfl⟩
  have lexed := lex_render (sound_of_read read) (separated_of_read read)
  rw [render, List.flatMap_singleton] at lexed
  exact parse_eq_some.mpr ⟨_, lexed, read⟩

end Alphabet

end reading

section arrays

variable {Symbol : Type} {A : Alphabet Symbol} {lexemes : List (Lexeme Symbol)}
  {parser next : Parser}

/-- What a step does to the stack: nothing, or it begins, goes on with or ends the
innermost array or object. -/
theorem Parser.step_stack {token : Token} (stepped : parser.step token = some next) :
    next.stack = parser.stack ∨ (∃ frame, next.stack = frame :: parser.stack) ∨
      (∃ old new rest, parser.stack = old :: rest ∧ next.stack = new :: rest ∧
        ∀ done, old = .array done → ∃ more, new = .array more) ∨
      ∃ old rest value, parser.stack = old :: rest ∧ next = ⟨.after value, rest⟩ ∧
        ∀ done, old = .array done → ∃ elements, value = .array elements := by
  obtain ⟨expected, stack⟩ := parser
  simp only [Parser.step] at stepped
  split at stepped
  all_goals cases stepped
  all_goals first
    | exact .inl rfl
    | exact .inr (.inl ⟨_, rfl⟩)
    | exact .inr (.inr (.inl ⟨_, _, _, rfl, rfl, by simp⟩))
    | exact .inr (.inr (.inr ⟨_, _, _, rfl, rfl, by simp⟩))

theorem Parser.step_finished (value : Json) (token : Token) :
    Parser.step ⟨.after value, []⟩ token = none := by
  cases token with
  | mark mark => cases mark <;> rfl
  | atom value => rfl

/-- The array a text began with is not finished, or nothing follows it. -/
def InArray (parser : Parser) : Prop :=
  (∃ inner done, parser.stack = inner ++ [.array done]) ∨
    ∃ elements, parser = ⟨.after (.array elements), []⟩

theorem InArray.step {token : Token} (inside : InArray parser)
    (stepped : parser.step token = some next) : InArray next := by
  rcases inside with ⟨inner, done, stack⟩ | ⟨elements, rfl⟩
  · rcases Parser.step_stack stepped with same | ⟨frame, pushed⟩ |
      ⟨old, new, rest, before, after, array⟩ | ⟨old, rest, value, before, rfl, array⟩
    · exact .inl ⟨inner, done, same.trans stack⟩
    · exact .inl ⟨frame :: inner, done, by rw [pushed, stack]; rfl⟩
    · rw [stack] at before
      rcases List.append_eq_cons_iff.mp before with ⟨rfl, same⟩ | ⟨others, rfl, rfl⟩
      · obtain ⟨rfl, rfl⟩ := List.cons.inj same
        obtain ⟨more, rfl⟩ := array done rfl
        exact .inl ⟨[], more, after⟩
      · exact .inl ⟨new :: others, done, after⟩
    · rw [stack] at before
      rcases List.append_eq_cons_iff.mp before with ⟨rfl, same⟩ | ⟨others, rfl, rfl⟩
      · obtain ⟨rfl, rfl⟩ := List.cons.inj same
        obtain ⟨elements, rfl⟩ := array done rfl
        exact .inr ⟨elements, rfl⟩
      · exact .inl ⟨others, done, rfl⟩
  · rw [Parser.step_finished] at stepped
    cases stepped

theorem InArray.read (inside : InArray parser) (done : A.read parser lexemes = some next) :
    InArray next := by
  induction lexemes generalizing parser with
  | nil => exact Option.some.inj done ▸ inside
  | cons lexeme rest ih =>
    obtain ⟨token, middle, _, stepped, done⟩ := Alphabet.read_cons.mp done
    exact ih (inside.step stepped) done

/-- A text that begins with a bracket is an array. -/
theorem Alphabet.parse_bracket {text : List Symbol} {value : Json}
    (parsed : A.parse (A.ofChar '[' :: text) = some value) :
    ∃ elements, value = .array elements := by
  obtain ⟨lexemes, lexed, done⟩ := Alphabet.parse_eq_some.mp parsed
  obtain ⟨out, word, ran, rfl⟩ := Alphabet.lex_eq_some.mp lexed
  have bracket : kind (A.view (A.ofChar '[')) = .mark .beginArray := by
    rw [A.view_ofChar]
    rfl
  simp only [Alphabet.run, Alphabet.step, bracket, Prod.mk.injEq] at ran
  obtain ⟨rfl, _⟩ := ran
  obtain ⟨token, middle, known, stepped, done⟩ := Alphabet.read_cons.mp done
  cases known
  cases stepped
  have inside : InArray ⟨.firstValue, [.array []]⟩ := .inl ⟨[], [], rfl⟩
  rcases inside.read done with ⟨inner, other, stack⟩ | ⟨elements, same⟩
  · simp at stack
  · cases same
    exact ⟨elements, rfl⟩

end arrays

end Lspd.Codec
