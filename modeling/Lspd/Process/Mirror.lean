import Lspd.Process.Program

/-! Programs that behave alike up to differences in what they call. A tolerance
says which differences are allowed; the rules follow the structure of programs,
so that two versions of one program are compared where they differ only. -/

namespace Lspd.Process

/-- The ways in which the calls of two runs may differ. -/
structure Tolerance (κ Op : Type) (Reply : Op → Type) where
  relates : κ → History Op Reply → History Op Reply → Prop
  equal : ∃ k, ∀ history, relates k history history
  extend : ∀ k before one two, relates k one two → relates k (before ++ one) (before ++ two)

namespace Program

variable {Op : Type} {Reply : Op → Type} {α β κ : Type}

/-- How a program ends: with a result or in a panic. -/
def ending : Option α → Program Op Reply α
  | some result => .done result
  | none => .panic

section bind

variable {history one two : History Op Reply} {rest : β → Program Op Reply α}

/-- A run of the first part goes on as a run of the sequence. -/
theorem Runs.bind {program middle : Program Op Reply β} {later : Program Op Reply α}
    (first : program.Runs one middle) (second : (middle.bind rest).Runs two later) :
    (program.bind rest).Runs (one ++ two) later := by
  induction first with
  | here => exact second
  | call reply _ ih => exact .call reply (ih second)
  | unroll _ ih =>
    apply Runs.unroll
    rw [← unroll_bind]
    exact ih second

/-- A run to the end of a sequence is a run to the end of its first part and one
of its second, unless the first part panics. -/
theorem of_runs_bind {program : Program Op Reply β} {ended : Option α}
    (runs : (program.bind rest).Runs history (ending ended)) :
    (∃ one two value, history = one ++ two ∧ program.Runs one (.done value) ∧
      (rest value).Runs two (ending ended)) ∨
    ended = none ∧ program.Runs history .panic := by
  generalize whole : program.bind rest = start at runs
  generalize stop : ending ended = last at runs
  induction runs generalizing program with
  | here =>
    subst stop
    cases program with
    | done value =>
      change rest value = ending ended at whole
      exact .inl ⟨[], [], value, rfl, .here, whole ▸ .here⟩
    | panic =>
      cases ended with
      | none => exact .inr ⟨rfl, .here⟩
      | some result => cases whole
    | call op next => cases ended <;> cases whole
    | loop body start next => cases ended <;> cases whole
  | call reply others ih =>
    cases program with
    | done value =>
      subst stop
      change rest value = _ at whole
      exact .inl ⟨[], _, value, rfl, .here, whole ▸ .call reply others⟩
    | panic => cases whole
    | call op next =>
      cases whole
      rcases ih rfl stop with ⟨one, two, value, rfl, first, second⟩ | ⟨panicked, first⟩
      · exact .inl ⟨_, two, value, rfl, .call reply first, second⟩
      · exact .inr ⟨panicked, .call reply first⟩
    | loop body start next => cases whole
  | unroll others ih =>
    cases program with
    | done value =>
      subst stop
      change rest value = _ at whole
      exact .inl ⟨[], _, value, rfl, .here, whole ▸ .unroll others⟩
    | panic => cases whole
    | call op next => cases whole
    | loop body start next =>
      cases whole
      rcases ih (unroll_bind ..) stop with ⟨one, two, value, rfl, first, second⟩ | ⟨panicked, first⟩
      · exact .inl ⟨_, two, value, rfl, .unroll first, second⟩
      · exact .inr ⟨panicked, .unroll first⟩

end bind

/-- Every run of a program to its end is matched by a run of one of the others
that ends alike, with calls that differ as tolerated. -/
def Mirrors (tolerance : Tolerance κ Op Reply) (program : Program Op Reply α)
    (others : κ → Program Op Reply α) : Prop :=
  ∀ history ended, program.Runs history (ending ended) →
    ∃ k matching, tolerance.relates k history matching ∧
      (others k).Runs matching (ending ended)

section mirrors

variable {tolerance : Tolerance κ Op Reply}

theorem mirrors_same (program : Program Op Reply α) :
    program.Mirrors tolerance fun _ => program := by
  intro history ended runs
  obtain ⟨k, equal⟩ := tolerance.equal
  exact ⟨k, history, equal history, runs⟩

theorem mirrors_bind {program : Program Op Reply β} {rest : β → Program Op Reply α}
    {others : κ → β → Program Op Reply α}
    (mirrors : ∀ value, (rest value).Mirrors tolerance fun k => others k value) :
    (program >>= rest).Mirrors tolerance fun k => program >>= others k := by
  intro history ended runs
  rcases of_runs_bind runs with ⟨one, two, value, rfl, first, second⟩ | ⟨rfl, panics⟩
  · obtain ⟨k, matching, relates, matched⟩ := mirrors value two ended second
    exact ⟨k, one ++ matching, tolerance.extend k one two matching relates,
      first.bind matched⟩
  · obtain ⟨k, equal⟩ := tolerance.equal
    have runs : (program.bind (others k)).Runs (history ++ []) .panic := panics.bind .here
    rw [List.append_nil] at runs
    exact ⟨k, history, equal history, runs⟩

end mirrors

end Program

end Lspd.Process
