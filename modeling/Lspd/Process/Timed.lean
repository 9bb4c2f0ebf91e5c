import Lspd.Process.Program

/-! Programs in time. A timing says when a call that was made at one moment gets
which reply. `Timely` is total correctness: however the calls are timed, the program
comes to an end, and does so in a moment and with a result as asked for. A loop is
justified by an invariant and a measure that goes down in each iteration. -/

namespace Lspd.Process

/-- A call at the first moment may get the reply at the second. -/
abbrev Timing (Op : Type) (Reply : Op → Type) : Type :=
  Int → (op : Op) → Reply op → Int → Prop

namespace Program

variable {Op : Type} {Reply : Op → Type} {α β σ : Type}

/-- One step of a program in time. Nothing but calls takes time. -/
inductive TimedStep (timing : Timing Op Reply) :
    Int × Program Op Reply α → Int × Program Op Reply α → Prop where
  | call (reply : Reply op) (timed : timing now op reply later) :
      TimedStep timing (now, .call op next) (later, next reply)
  | unroll : TimedStep timing (now, .loop body start next) (now, unroll body start next)

/-- A run in time up to some moment. -/
inductive TimedRuns (timing : Timing Op Reply) :
    Int × Program Op Reply α → Int × Program Op Reply α → Prop where
  | here : TimedRuns timing moment moment
  | step (first : TimedStep timing moment middle) (rest : TimedRuns timing middle later) :
      TimedRuns timing moment later

/-- The program ends in every run, and `post` holds of the moment and of the result,
or of no result after a panic. -/
inductive Timely (timing : Timing Op Reply) (post : Int → Option α → Prop) :
    Int → Program Op Reply α → Prop where
  | done (holds : post now (some result)) : Timely timing post now (.done result)
  | panic (holds : post now none) : Timely timing post now .panic
  | call (continues : ∀ reply later, timing now op reply later →
      Timely timing post later (next reply)) : Timely timing post now (.call op next)
  | unroll (continues : Timely timing post now (unroll body start next)) :
      Timely timing post now (.loop body start next)

variable {timing : Timing Op Reply} {post weaker : Int → Option α → Prop} {now later : Int}
variable {program after : Program Op Reply α} {result : α}

theorem Timely.step (timely : Timely timing post now program)
    (step : TimedStep timing (now, program) (later, after)) : Timely timing post later after := by
  cases step with
  | call reply timed =>
    cases timely with
    | call continues => exact continues reply later timed
  | unroll =>
    cases timely with
    | unroll continues => exact continues

/-- What a run has come to is what was asked for. -/
theorem Timely.runs (timely : Timely timing post now program)
    (runs : TimedRuns timing (now, program) (later, after)) : Timely timing post later after := by
  generalize start : (now, program) = moment at runs
  generalize stop : (later, after) = reached at runs
  induction runs generalizing now program with
  | here =>
    obtain ⟨rfl, rfl⟩ := Prod.mk.inj (start.trans stop.symm)
    exact timely
  | @step _ middle _ first rest ih =>
    subst start
    exact ih (timely.step first) rfl stop

theorem Timely.returns (timely : Timely timing post now program)
    (runs : TimedRuns timing (now, program) (later, .done result)) : post later (some result) := by
  cases timely.runs runs with
  | done holds => exact holds

/-- No run goes on forever. -/
theorem Timely.finite (timely : Timely timing post now program)
    (moments : Nat → Int × Program Op Reply α) (start : moments 0 = (now, program)) :
    ¬ ∀ n, TimedStep timing (moments n) (moments (n + 1)) := by
  induction timely generalizing moments with
  | done holds =>
    intro steps
    have first := steps 0
    rw [start] at first
    cases first
  | panic holds =>
    intro steps
    have first := steps 0
    rw [start] at first
    cases first
  | call continues ih =>
    intro steps
    have first := steps 0
    rw [start] at first
    generalize reached : moments (0 + 1) = second at first
    cases first with
    | call reply timed =>
      exact ih reply _ timed (fun n => moments (n + 1)) reached fun n => steps (n + 1)
  | unroll continues ih =>
    intro steps
    have first := steps 0
    rw [start] at first
    generalize reached : moments (0 + 1) = second at first
    cases first with
    | unroll => exact ih (fun n => moments (n + 1)) reached fun n => steps (n + 1)

/-- The same for a reader of runs: they are finite, and end as asked for. -/
structure Concludes (timing : Timing Op Reply) (post : Int → Option α → Prop) (now : Int)
    (program : Program Op Reply α) : Prop where
  finite : ∀ moments : Nat → Int × Program Op Reply α, moments 0 = (now, program) →
    ¬ ∀ n, TimedStep timing (moments n) (moments (n + 1))
  returns : ∀ later result, TimedRuns timing (now, program) (later, .done result) →
    post later (some result)
  panics : ∀ later, TimedRuns timing (now, program) (later, .panic) → post later none

theorem Timely.concludes (timely : Timely timing post now program) : Concludes timing post now program where
  finite := timely.finite
  returns _ _ := timely.returns
  panics later runs := by
    cases timely.runs runs with
    | panic holds => exact holds

theorem Timely.mono (timely : Timely timing post now program)
    (implies : ∀ later result, post later result → weaker later result) :
    Timely timing weaker now program := by
  induction timely with
  | done holds => exact .done (implies _ _ holds)
  | panic holds => exact .panic (implies _ _ holds)
  | call continues ih => exact .call ih
  | unroll continues ih => exact .unroll ih

section rules

variable {middle : Int → Option β → Prop}

theorem timely_pure (holds : post now (some result)) :
    Timely timing post now (pure result : Program Op Reply α) := .done holds

theorem timely_ask {op : Op} {rest : Reply op → Program Op Reply α}
    (continues : ∀ reply later, timing now op reply later → Timely timing post later (rest reply)) :
    Timely timing post now (ask op >>= rest) := .call continues

theorem Timely.bind {program : Program Op Reply β} {rest : β → Program Op Reply α}
    (first : Timely timing middle now program)
    (second : ∀ later result, middle later (some result) → Timely timing post later (rest result))
    (panics : ∀ later, middle later none → post later none) :
    Timely timing post now (program.bind rest) := by
  induction first with
  | done holds => exact second _ _ holds
  | panic holds => exact .panic (panics _ holds)
  | call continues ih => exact .call ih
  | unroll continues ih =>
    refine .unroll ?_
    rw [unroll_bind] at ih
    exact ih

theorem timely_bind {program : Program Op Reply β} {rest : β → Program Op Reply α}
    (middle : Int → Option β → Prop) (first : Timely timing middle now program)
    (second : ∀ later result, middle later (some result) → Timely timing post later (rest result))
    (panics : ∀ later, middle later none → post later none) :
    Timely timing post now (program >>= rest) := first.bind second panics

/-- What an iteration of a loop comes to: it is left, or goes on from a new state. -/
def iteration (again : σ → Int → Prop) (post : Int → Option α → Prop) :
    Int → Option (σ ⊕ α) → Prop
  | later, none => post later none
  | later, some (.inl state) => again state later
  | later, some (.inr result) => post later (some result)

/-- The measure is of the moment at which an iteration begins. -/
theorem timely_forever {body : σ → Program Op Reply (σ ⊕ α)} {start : σ}
    (invariant : σ → Int → Prop) (measure : Int → Nat) (initial : invariant start now)
    (iterates : ∀ state began, invariant state began → Timely timing
      (iteration (fun state later => invariant state later ∧ measure later < measure began) post)
      began (body state)) :
    Timely timing post now (forever body start) := by
  induction below : measure now using Nat.strongRecOn generalizing now start with
  | ind bound ih =>
    refine .unroll ((iterates start now initial).bind ?_ fun _ holds => holds)
    intro later outcome reached
    cases outcome with
    | inl state => exact ih _ (below ▸ reached.2) reached.1 rfl
    | inr result => exact .done reached

end rules

/-- The program ends within a span of time, whenever it begins. -/
def Lasts (timing : Timing Op Reply) (program : Program Op Reply α) (span : Int) : Prop :=
  ∀ now, Timely timing (fun later _ => now ≤ later ∧ later ≤ now + span) now program

section lasts

variable {span first rest longer : Int}

theorem Lasts.mono (lasts : Lasts timing program span) (within : span ≤ longer) :
    Lasts timing program longer :=
  fun now => (lasts now).mono fun _ _ bounds => ⟨bounds.1, by omega⟩

theorem lasts_pure (nonneg : 0 ≤ span) : Lasts timing (pure result : Program Op Reply α) span :=
  fun now => timely_pure ⟨Int.le_refl _, by omega⟩

theorem lasts_panic (nonneg : 0 ≤ span) : Lasts timing (.panic : Program Op Reply α) span :=
  fun now => .panic ⟨Int.le_refl _, by omega⟩

theorem lasts_bind {program : Program Op Reply β} {next : β → Program Op Reply α}
    (lasts : Lasts timing program first) (nonneg : 0 ≤ rest) (within : first + rest ≤ span)
    (continues : ∀ result, Lasts timing (next result) rest) :
    Lasts timing (program >>= next) span := by
  intro now
  refine timely_bind _ (lasts now) ?_ ?_
  · intro later result bounds
    refine (continues result later).mono fun _ _ ends => ?_
    omega
  · intro later bounds
    omega

/-- A call that takes some time, and what comes behind it. -/
theorem lasts_ask {op : Op} {next : Reply op → Program Op Reply α} (rest : Int)
    (takes : ∀ now reply later, timing now op reply later → now ≤ later ∧ later ≤ now + first)
    (within : first + rest ≤ span) (continues : ∀ reply, Lasts timing (next reply) rest) :
    Lasts timing (ask op >>= next) span := by
  intro now
  refine timely_ask fun reply later timed => ?_
  have bounds := takes now reply later timed
  refine (continues reply later).mono fun _ _ ends => ?_
  omega

end lasts

end Program

end Lspd.Process
