import Lspd.Codec.Json

/-! Objects written from the texts of their members. -/

namespace Lspd.Codec

namespace Alphabet

variable {Symbol : Type} (A : Alphabet Symbol)

/-- The text of a key, without quotes, and the text of a value. -/
abbrev Member (Symbol : Type) := List Symbol × List Symbol

def memberText (member : Member Symbol) : List Symbol :=
  A.ofChar '"' :: (member.1 ++ [A.ofChar '"']) ++ A.ofChar ':' :: member.2

def membersText : List (Member Symbol) → List Symbol
  | [] => []
  | [member] => A.memberText member
  | member :: rest => A.memberText member ++ A.ofChar ',' :: membersText rest

def objectText (members : List (Member Symbol)) : List Symbol :=
  A.ofChar '{' :: (A.membersText members ++ [A.ofChar '}'])

section values

variable {A}

/-- What a member stands for. -/
structure Means (A : Alphabet Symbol) (member : Member Symbol) (pair : List Char × Json) : Prop where
  key : unquote (member.1.map A.view) = some pair.1
  value : A.parse member.2 = some pair.2

theorem lex_string {raw : List Symbol} {text : List Char}
    (read : unquote (raw.map A.view) = some text) :
    A.lex (A.ofChar '"' :: (raw ++ [A.ofChar '"'])) = some [.string raw] := by
  obtain ⟨found, spells, rfl⟩ := spells_of_unquote read
  have lexed := @lex_render _ A [.string raw] (by simpa [Sound] using spells.closed) (.singleton _)
  simpa [render, renderLexeme] using lexed

/-- A member is read behind the brace or comma before it. -/
theorem read_member {member : Member Symbol} {pair : List Char × Json} (means : A.Means member pair)
    {expected : Expected} (keyNext : expected = .key ∨ expected = .firstKey)
    (done : List (List Char × Json)) (base : List Frame) :
    ∃ lexemes, A.lex (A.memberText member) = some lexemes ∧
      A.read ⟨expected, .object done :: base⟩ lexemes =
        some ⟨.after pair.2, .member done pair.1 :: base⟩ := by
  obtain ⟨lexemes, lexed, read⟩ := parse_eq_some.mp means.value
  have colon : kind (A.view (A.ofChar ':')) = .mark .colon := by
    rw [A.view_ofChar]
    rfl
  refine ⟨_, lex_mark (lex_string means.key) colon lexed, ?_⟩
  have known : A.token (.string member.1) = some (.atom (.string pair.1)) := by
    rw [token, means.key]
    rfl
  refine read_cons.mpr ⟨_, ⟨.colon, .member done pair.1 :: base⟩, known, ?_, ?_⟩
  · rcases keyNext with rfl | rfl <;> rfl
  · exact read_cons.mpr ⟨_, _, rfl, rfl, read_value read _⟩

theorem read_members {members : List (Member Symbol)} {pairs : List (List Char × Json)}
    (means : List.Forall₂ A.Means members pairs) (nonempty : members ≠ [])
    {expected : Expected} (keyNext : expected = .key ∨ expected = .firstKey)
    (done : List (List Char × Json)) (base : List Frame) :
    ∃ lexemes, A.lex (A.membersText members) = some lexemes ∧
      A.read ⟨expected, .object done :: base⟩ (lexemes ++ [.mark .endObject]) =
        some ⟨.after (.object (done ++ pairs)), base⟩ := by
  induction means generalizing expected done with
  | nil => exact absurd rfl nonempty
  | @cons member pair rest later here more ih =>
    obtain ⟨lexemes, lexed, read⟩ := read_member here keyNext done base
    cases more with
    | nil =>
      refine ⟨lexemes, lexed, ?_⟩
      rw [read_append_of read]
      exact read_cons.mpr ⟨_, _, rfl, rfl, rfl⟩
    | cons =>
      obtain ⟨behind, lexedBehind, readBehind⟩ :=
        ih (List.cons_ne_nil _ _) (.inl rfl) (done ++ [pair])
      have comma : kind (A.view (A.ofChar ',')) = .mark .comma := by
        rw [A.view_ofChar]
        rfl
      refine ⟨_, lex_mark lexed comma lexedBehind, ?_⟩
      rw [List.append_assoc, read_append_of read, List.cons_append]
      rw [List.append_assoc] at readBehind
      exact read_cons.mpr ⟨_, _, rfl, rfl, readBehind⟩

/-- The value of an object is that of its members. -/
theorem parse_objectText {members : List (Member Symbol)} {pairs : List (List Char × Json)}
    (means : List.Forall₂ A.Means members pairs) (nonempty : members ≠ []) :
    A.parse (A.objectText members) = some (.object pairs) := by
  obtain ⟨lexemes, lexed, read⟩ := read_members means nonempty (.inr rfl) [] []
  have opened : kind (A.view (A.ofChar '{')) = .mark .beginObject := by
    rw [A.view_ofChar]
    rfl
  have closed : kind (A.view (A.ofChar '}')) = .mark .endObject := by
    rw [A.view_ofChar]
    rfl
  have inner := @lex_mark _ A _ [] _ _ _ [] lexed closed rfl
  have outer := @lex_mark _ A [] _ _ _ [] _ rfl opened inner
  exact parse_eq_some.mpr ⟨_, outer, read_cons.mpr ⟨_, _, rfl, rfl, read⟩⟩

end values

section symbols

variable {A} {members : List (Member Symbol)}

theorem forall_memberText {property : Symbol → Prop} {member : Member Symbol}
    (marks : ∀ char ∈ ['"', ':', ',', '{', '}'], property (A.ofChar char))
    (key : ∀ symbol ∈ member.1, property symbol) (value : ∀ symbol ∈ member.2, property symbol) :
    ∀ symbol ∈ A.memberText member, property symbol := by
  have quote := marks '"' (by decide)
  have colon := marks ':' (by decide)
  simp only [memberText, List.forall_mem_append, List.forall_mem_cons]
  exact ⟨⟨quote, key, quote, nofun⟩, colon, value⟩

/-- What the symbols of an object are, if its members and marks are. -/
theorem forall_objectText {property : Symbol → Prop}
    (marks : ∀ char ∈ ['"', ':', ',', '{', '}'], property (A.ofChar char))
    (parts : ∀ member ∈ members,
      (∀ symbol ∈ member.1, property symbol) ∧ ∀ symbol ∈ member.2, property symbol) :
    ∀ symbol ∈ A.objectText members, property symbol := by
  have inside : ∀ symbol ∈ A.membersText members, property symbol := by
    induction members with
    | nil => simp [membersText]
    | cons member rest ih =>
      have here := forall_memberText marks (parts member (.head _)).1 (parts member (.head _)).2
      cases rest with
      | nil => exact here
      | cons second rest =>
        simp only [membersText, List.forall_mem_append, List.forall_mem_cons]
        exact ⟨here, marks ',' (by decide), ih fun other among => parts other (.tail _ among)⟩
  simp only [objectText, List.forall_mem_append, List.forall_mem_cons]
  exact ⟨marks '{' (by decide), inside, marks '}' (by decide), nofun⟩

theorem mem_objectText {member : Member Symbol} {symbol : Symbol} (among : member ∈ members)
    (inside : symbol ∈ member.2) : symbol ∈ A.objectText members := by
  have here : symbol ∈ A.membersText members := by
    induction members with
    | nil => cases among
    | cons first rest ih =>
      have own (same : member = first) : symbol ∈ A.memberText first :=
        List.mem_append_right _ (.tail _ (same ▸ inside))
      cases rest with
      | nil => exact own (List.mem_singleton.mp among)
      | cons second rest =>
        rcases List.mem_cons.mp among with same | later
        · exact List.mem_append_left _ (own same)
        · exact List.mem_append_right _ (.tail _ (ih later))
  exact .tail _ (List.mem_append_left _ here)

end symbols

end Alphabet

end Lspd.Codec
