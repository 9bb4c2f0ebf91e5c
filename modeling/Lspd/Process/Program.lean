import Mathlib.Data.List.Basic

/-! Sequential code seen through the calls it makes. A program is a tree whose
inner nodes are calls to the outside and whose branches are the possible
replies; an unbounded `for` loop is a node of its own, so nothing is cut off by
a step budget. A contract says which calls and results a program may produce
after a given history, and `Follows` is the proof rule for it. -/

namespace Lspd.Process

/-- One finished call: the operation and the reply it got. -/
abbrev Event (Op : Type) (Reply : Op → Type) : Type := (op : Op) × Reply op

abbrev History (Op : Type) (Reply : Op → Type) : Type := List (Event Op Reply)

/-- `loop body start next` runs `body` from `start` until it yields a result
on the right; a value on the left is the state of the next iteration. -/
inductive Program (Op : Type) (Reply : Op → Type) : Type → Type 1 where
  | done (result : α) : Program Op Reply α
  | panic : Program Op Reply α
  | call (op : Op) (next : Reply op → Program Op Reply α) : Program Op Reply α
  | loop {σ β : Type} (body : σ → Program Op Reply (σ ⊕ β)) (start : σ)
      (next : β → Program Op Reply α) : Program Op Reply α

namespace Program

variable {Op : Type} {Reply : Op → Type} {α β σ : Type}

def bind : {α : Type} → Program Op Reply α → (α → Program Op Reply β) → Program Op Reply β
  | _, .done result, rest => rest result
  | _, .panic, _ => .panic
  | _, .call op next, rest => .call op (fun reply => (next reply).bind rest)
  | _, .loop body start next, rest => .loop body start (fun result => (next result).bind rest)

instance : Monad (Program Op Reply) where
  pure := .done
  bind := .bind

/-- Issue one call and hand its reply on. -/
def ask (op : Op) : Program Op Reply (Reply op) := .call op .done

/-- An unconditional `for` loop; a result on the right leaves it. -/
def forever (body : σ → Program Op Reply (σ ⊕ β)) (start : σ) : Program Op Reply β :=
  .loop body start .done

/-- The program after one iteration of a loop has been put in front of it. -/
def unroll (body : σ → Program Op Reply (σ ⊕ β)) (start : σ)
    (next : β → Program Op Reply α) : Program Op Reply α :=
  (body start).bind (Sum.elim (fun state => .loop body state next) next)

theorem bind_assoc {γ : Type} (program : Program Op Reply γ) (first : γ → Program Op Reply β)
    (second : β → Program Op Reply α) :
    (program.bind first).bind second = program.bind fun value => (first value).bind second := by
  induction program with
  | done result => rfl
  | panic => rfl
  | call op next ih =>
    simp only [Program.bind]
    congr 1
    funext reply
    exact ih reply first
  | loop body start next _ ih =>
    simp only [Program.bind]
    congr 1
    funext result
    exact ih result first

/-- What follows a loop follows its unrolled form as well. -/
theorem unroll_bind {γ : Type} (body : σ → Program Op Reply (σ ⊕ γ)) (start : σ)
    (next : γ → Program Op Reply β) (rest : β → Program Op Reply α) :
    (unroll body start next).bind rest = unroll body start fun result => (next result).bind rest := by
  rw [unroll, bind_assoc, unroll]
  congr 1
  funext outcome
  cases outcome <;> rfl

/-- One step: a call receives a reply, or a loop is unrolled silently. -/
inductive Step : Program Op Reply α → Option (Event Op Reply) → Program Op Reply α → Prop where
  | call (reply : Reply op) : Step (.call op next) (some ⟨op, reply⟩) (next reply)
  | unroll : Step (.loop body start next) none (unroll body start next)

end Program

/-- What a program may do after a history: the calls it may issue and whether
it may panic there. -/
structure Contract (Op : Type) (Reply : Op → Type) where
  allowed : History Op Reply → Op → Prop
  panics : History Op Reply → Prop

namespace Program

variable {Op : Type} {Reply : Op → Type} {α β σ : Type}

/-- `program` keeps the contract after `history`, whatever replies it gets, and
every result it returns satisfies `post`. A loop is justified by an invariant. -/
def Follows (contract : Contract Op Reply) : {α : Type} → Program Op Reply α →
    History Op Reply → (History Op Reply → α → Prop) → Prop
  | _, .done result, history, post => post history result
  | _, .panic, history, _ => contract.panics history
  | _, .call op next, history, post => contract.allowed history op ∧
      ∀ reply, (next reply).Follows contract (history ++ [⟨op, reply⟩]) post
  | _, .loop (σ := σ) body start next, history, post =>
      ∃ invariant : σ → History Op Reply → Prop, invariant start history ∧
        ∀ state current, invariant state current →
          (body state).Follows contract current fun later =>
            Sum.elim (fun state => invariant state later)
              (fun result => (next result).Follows contract later post)

variable {contract : Contract Op Reply}

theorem Follows.mono {program : Program Op Reply α} {history : History Op Reply}
    {post weaker : History Op Reply → α → Prop}
    (follows : program.Follows contract history post)
    (implies : ∀ later result, post later result → weaker later result) :
    program.Follows contract history weaker := by
  induction program generalizing history with
  | done result => exact implies history result follows
  | panic => exact follows
  | call op next ih => exact ⟨follows.1, fun reply => ih reply (follows.2 reply) implies⟩
  | loop body start next ihBody ihNext =>
    obtain ⟨invariant, initial, kept⟩ := follows
    refine ⟨invariant, initial, fun state current holds => ?_⟩
    apply ihBody state (kept state current holds)
    intro later outcome reached
    cases outcome with
    | inl state => exact reached
    | inr result => exact ihNext result reached implies

theorem Follows.bind {program : Program Op Reply α} {rest : α → Program Op Reply β}
    {history : History Op Reply} {middle : History Op Reply → α → Prop}
    {post : History Op Reply → β → Prop}
    (first : program.Follows contract history middle)
    (second : ∀ later result, middle later result → (rest result).Follows contract later post) :
    (program.bind rest).Follows contract history post := by
  induction program generalizing history with
  | done result => exact second history result first
  | panic => exact first
  | call op next ih => exact ⟨first.1, fun reply => ih reply (first.2 reply) second⟩
  | loop body start next _ ihNext =>
    obtain ⟨invariant, initial, kept⟩ := first
    refine ⟨invariant, initial, fun state current holds => ?_⟩
    apply (kept state current holds).mono
    intro later outcome reached
    cases outcome with
    | inl state => exact reached
    | inr result => exact ihNext result reached second

/-- Unrolling a loop once keeps what its invariant promised. -/
theorem Follows.unroll {body : σ → Program Op Reply (σ ⊕ β)} {start : σ}
    {next : β → Program Op Reply α} {history : History Op Reply}
    {post : History Op Reply → α → Prop}
    (follows : (loop body start next).Follows contract history post) :
    (Program.unroll body start next).Follows contract history post := by
  obtain ⟨invariant, initial, kept⟩ := follows
  apply (kept start history initial).bind
  intro later outcome reached
  cases outcome with
  | inl state => exact ⟨invariant, reached, kept⟩
  | inr result => exact reached

theorem Follows.step {program after : Program Op Reply α} {event : Option (Event Op Reply)}
    {history : History Op Reply} {post : History Op Reply → α → Prop}
    (follows : program.Follows contract history post) (step : Step program event after) :
    (∀ happened ∈ event, contract.allowed history happened.1) ∧
      after.Follows contract (history ++ event.toList) post := by
  cases step with
  | call reply => exact ⟨by simpa using follows.1, by simpa using follows.2 reply⟩
  | unroll => exact ⟨by simp, by simpa using follows.unroll⟩

section rules

variable {history : History Op Reply} {post : History Op Reply → α → Prop}

theorem follows_pure {result : α} (holds : post history result) :
    (pure result : Program Op Reply α).Follows contract history post := holds

theorem follows_ask {op : Op} {rest : Reply op → Program Op Reply α}
    (allowed : contract.allowed history op)
    (continues : ∀ reply, (rest reply).Follows contract (history ++ [⟨op, reply⟩]) post) :
    (ask op >>= rest).Follows contract history post := ⟨allowed, continues⟩

theorem follows_bind {program : Program Op Reply β} {rest : β → Program Op Reply α}
    (middle : History Op Reply → β → Prop) (first : program.Follows contract history middle)
    (second : ∀ later result, middle later result → (rest result).Follows contract later post) :
    (program >>= rest).Follows contract history post := first.bind second

theorem follows_forever {body : σ → Program Op Reply (σ ⊕ α)} {start : σ}
    (invariant : σ → History Op Reply → Prop) (initial : invariant start history)
    (kept : ∀ state current, invariant state current →
      (body state).Follows contract current fun later =>
        Sum.elim (fun state => invariant state later) (fun result => post later result)) :
    (forever body start).Follows contract history post := ⟨invariant, initial, kept⟩

end rules

/-- The calls a program has made and what is left of it then. -/
inductive Runs : Program Op Reply α → History Op Reply → Program Op Reply α → Prop where
  | here : Runs program [] program
  | call (reply : Reply op) (rest : Runs (next reply) history later) :
      Runs (.call op next) (⟨op, reply⟩ :: history) later
  | unroll (rest : Runs (unroll body start next) history later) :
      Runs (.loop body start next) history later

section runs

variable {history : History Op Reply} {later : Program Op Reply α}

theorem runs_ask {op : Op} {rest : Reply op → Program Op Reply α} (reply : Reply op)
    (runs : (rest reply).Runs history later) :
    (ask op >>= rest).Runs (⟨op, reply⟩ :: history) later := .call reply runs

/-- A call that has been made has its reply, and the rest has run from there. -/
theorem of_runs_ask {op : Op} {rest : Reply op → Program Op Reply α}
    (runs : (ask op >>= rest).Runs history later) :
    history = [] ∧ later = (ask op >>= rest) ∨
      ∃ reply after, history = ⟨op, reply⟩ :: after ∧ (rest reply).Runs after later := by
  change Runs (.call op rest) history later at runs
  cases runs with
  | here => exact .inl ⟨rfl, rfl⟩
  | call reply runs => exact .inr ⟨reply, _, rfl, runs⟩

theorem of_runs_pure {result : α} (runs : (pure result : Program Op Reply α).Runs history later) :
    history = [] ∧ later = pure result := by
  change Runs (.done result) history later at runs
  cases runs
  exact ⟨rfl, rfl⟩

end runs

end Program

/-- An entry of a log that has grown by one is the new one, or was there before. -/
theorem eq_or_split_of_snoc {α : Type} {log before after : List α} {new entry : α}
    (split : log ++ [new] = before ++ entry :: after) :
    (after = [] ∧ log = before ∧ new = entry) ∨
      ∃ init, after = init ++ [new] ∧ log = before ++ entry :: init := by
  rcases List.eq_nil_or_concat' after with rfl | ⟨init, last, rfl⟩
  · obtain ⟨same, single⟩ := List.append_inj' split rfl
    exact .inl ⟨rfl, same, List.singleton_injective single⟩
  · have whole : log ++ [new] = (before ++ entry :: init) ++ [last] := by simpa using split
    obtain ⟨same, single⟩ := List.append_inj' whole rfl
    rw [List.singleton_injective single]
    exact .inr ⟨init, rfl, same⟩

/-- Something began with an entry of a log, and no later entry has ended it. -/
def Since {α : Type} (begins ends : α → Prop) (log : List α) : Prop :=
  ∃ before entry after, log = before ++ entry :: after ∧ begins entry ∧ ∀ later ∈ after, ¬ ends later

theorem not_since_nil {α : Type} {begins ends : α → Prop} : ¬ Since begins ends [] := by
  rintro ⟨before, entry, after, split, _⟩
  simp at split

theorem since_snoc {α : Type} {begins ends : α → Prop} {log : List α} {new : α} :
    Since begins ends (log ++ [new]) ↔ begins new ∨ Since begins ends log ∧ ¬ ends new := by
  constructor
  · rintro ⟨before, first, after, split, began, kept⟩
    rcases eq_or_split_of_snoc split with ⟨_, _, rfl⟩ | ⟨init, rfl, rfl⟩
    · exact .inl began
    · refine .inr ⟨⟨before, first, init, rfl, began, ?_⟩, kept new (by simp)⟩
      intro later member
      exact kept later (List.mem_append_left _ member)
  · rintro (began | ⟨⟨before, first, after, rfl, began, kept⟩, goes⟩)
    · exact ⟨log, new, [], rfl, began, by simp⟩
    · refine ⟨before, first, after ++ [new], by simp, began, ?_⟩
      intro later member
      rcases List.mem_append.mp member with old | one
      · exact kept later old
      · rw [List.mem_singleton.mp one]
        exact goes

/-- Every call recorded in a history was allowed after the calls before it. -/
def Contract.Obeyed (contract : Contract Op Reply) (history : History Op Reply) : Prop :=
  ∀ earlier event later, history = earlier ++ event :: later → contract.allowed earlier event.1

theorem Contract.obeyed_nil (contract : Contract Op Reply) : contract.Obeyed [] := by
  intro earlier event later same
  simp at same

theorem Contract.Obeyed.snoc {contract : Contract Op Reply} {history : History Op Reply}
    {event : Event Op Reply} (obeyed : contract.Obeyed history)
    (allowed : contract.allowed history event.1) : contract.Obeyed (history ++ [event]) := by
  intro earlier other later split
  rcases eq_or_split_of_snoc split with ⟨_, rfl, rfl⟩ | ⟨init, _, before⟩
  · exact allowed
  · exact obeyed earlier other init before

namespace Program

variable {Op : Type} {Reply : Op → Type} {α : Type} {contract : Contract Op Reply}

/-- Whatever a run has done obeys the contract, and what is left still follows it. -/
theorem Follows.runs {program later : Program Op Reply α} {before history : History Op Reply}
    {post : History Op Reply → α → Prop} (runs : program.Runs history later)
    (follows : program.Follows contract before post) (obeyed : contract.Obeyed before) :
    contract.Obeyed (before ++ history) ∧ later.Follows contract (before ++ history) post := by
  induction runs generalizing before with
  | here => simpa using ⟨obeyed, follows⟩
  | call reply rest ih =>
    have extended := ih (follows.2 reply) (obeyed.snoc follows.1)
    simpa using extended
  | unroll rest ih => exact ih follows.unroll obeyed

end Program

end Lspd.Process
