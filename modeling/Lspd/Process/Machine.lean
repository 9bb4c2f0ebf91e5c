import Mathlib.Logic.Relation
import Mathlib.Order.Monotone.Basic
import Mathlib.Order.WellFounded

/-! State machines with labelled transitions: the states their runs go through,
and the rules by which something holds in every run, in every run whose steps
are all allowed, or at some point of every endless run. -/

namespace Lspd.Process

structure Machine (State Action : Type) where
  Initial : State → Prop
  Step : State → Action → State → Prop

namespace Machine

variable {State Action : Type}

/-- A run in which every step is allowed. -/
def ReachesWhen (machine : Machine State Action) (allowed : State → Action → Prop) :
    State → State → Prop :=
  Relation.ReflTransGen fun s later => ∃ action, allowed s action ∧ machine.Step s action later

def ReachableWhen (machine : Machine State Action) (allowed : State → Action → Prop)
    (s : State) : Prop :=
  ∃ first, machine.Initial first ∧ machine.ReachesWhen allowed first s

def Reaches (machine : Machine State Action) : State → State → Prop :=
  machine.ReachesWhen fun _ _ => True

/-- The states that some run from an initial state goes through. -/
def Reachable (machine : Machine State Action) (s : State) : Prop :=
  machine.ReachableWhen (fun _ _ => True) s

variable {machine : Machine State Action} {allowed : State → Action → Prop}
  {u s later : State} {action : Action}

theorem ReachableWhen.start (initial : machine.Initial s) : machine.ReachableWhen allowed s :=
  ⟨s, initial, .refl⟩

theorem ReachableWhen.step (reachable : machine.ReachableWhen allowed s) (may : allowed s action)
    (step : machine.Step s action later) : machine.ReachableWhen allowed later := by
  obtain ⟨first, initial, run⟩ := reachable
  exact ⟨first, initial, run.tail ⟨action, may, step⟩⟩

theorem ReachableWhen.reachable (restricted : machine.ReachableWhen allowed s) :
    machine.Reachable s := by
  obtain ⟨first, initial, run⟩ := restricted
  refine ⟨first, initial, Relation.ReflTransGen.mono ?_ _ _ run⟩
  rintro one two ⟨action, _, step⟩
  exact ⟨action, trivial, step⟩

/-- What holds initially and is kept by every allowed step holds in every state
that runs of allowed steps reach. -/
theorem ReachableWhen.induct (holds : State → Prop) (start : ∀ s, machine.Initial s → holds s)
    (step : ∀ s action later, machine.Reachable s → holds s → allowed s action →
      machine.Step s action later → holds later)
    (reachable : machine.ReachableWhen allowed s) : holds s := by
  obtain ⟨first, initial, run⟩ := reachable
  induction run with
  | refl => exact start first initial
  | tail before taken ih =>
    obtain ⟨action, may, taken⟩ := taken
    have earlier : machine.ReachableWhen allowed _ := ⟨first, initial, before⟩
    exact step _ action _ earlier.reachable ih may taken

theorem Reachable.start (initial : machine.Initial s) : machine.Reachable s :=
  ReachableWhen.start initial

theorem Reachable.step (reachable : machine.Reachable s) (step : machine.Step s action later) :
    machine.Reachable later :=
  ReachableWhen.step reachable trivial step

theorem Reachable.induct (holds : State → Prop) (start : ∀ s, machine.Initial s → holds s)
    (step : ∀ s action later, machine.Reachable s → holds s →
      machine.Step s action later → holds later)
    (reachable : machine.Reachable s) : holds s :=
  ReachableWhen.induct holds start
    (fun s action later before held _ taken => step s action later before held taken) reachable

theorem Reachable.here (_ : machine.Reachable s) : machine.Reaches s s :=
  Relation.ReflTransGen.refl

theorem Reachable.trans (reachable : machine.Reachable u) (run : machine.Reaches u s) :
    machine.Reachable s := by
  obtain ⟨first, initial, before⟩ := reachable
  exact ⟨first, initial, Relation.ReflTransGen.trans before run⟩

theorem Reaches.step (run : machine.Reaches u s) (step : machine.Step s action later) :
    machine.Reaches u later :=
  Relation.ReflTransGen.tail run ⟨action, trivial, step⟩

/-- A relation between the ends of a run, from what one more step does to it. -/
theorem Reaches.induct (related : State → Prop) (start : related u)
    (step : ∀ s action later, related s → machine.Step s action later → related later)
    (run : machine.Reaches u s) : related s := by
  unfold Reaches ReachesWhen at run
  induction run with
  | refl => exact start
  | tail before taken ih =>
    obtain ⟨action, _, taken⟩ := taken
    exact step _ action _ ih taken

/-- Every state of an endless run from a reachable one is reachable. -/
theorem Reachable.endless {run : Nat → State}
    (steps : ∀ n, ∃ action, machine.Step (run n) action (run (n + 1)))
    (start : machine.Reachable (run 0)) (n : Nat) : machine.Reachable (run n) := by
  induction n with
  | zero => exact start
  | succ n ih =>
    obtain ⟨action, taken⟩ := steps n
    exact ih.step taken

/-- Runs end when every step brings a rank down. -/
theorem Reachable.ends {run : Nat → State} (rank : State → Nat)
    (falls : ∀ s action later, machine.Reachable s → machine.Step s action later →
      rank later < rank s)
    (start : machine.Reachable (run 0)) : ∃ n, ¬ ∃ action, machine.Step (run n) action (run (n + 1)) := by
  by_contra endless
  have steps : ∀ n, ∃ action, machine.Step (run n) action (run (n + 1)) :=
    not_exists_not.mp endless
  obtain ⟨n, rises⟩ := WellFounded.not_rel_apply_succ (r := (· < ·)) fun n => rank (run n)
  obtain ⟨action, taken⟩ := steps n
  exact rises (falls _ action _ (Reachable.endless steps start n) taken)

/-- Runs of allowed steps end when each of those brings a rank down. -/
theorem Reachable.ends_when {run : Nat → State} (rank : State → Nat)
    (falls : ∀ s action later, machine.Reachable s → allowed s action →
      machine.Step s action later → rank later < rank s)
    (start : machine.Reachable (run 0)) :
    ∃ n, ¬ ∃ action, allowed (run n) action ∧ machine.Step (run n) action (run (n + 1)) := by
  by_contra endless
  have steps := not_exists_not.mp endless
  obtain ⟨n, rises⟩ := WellFounded.not_rel_apply_succ (r := (· < ·)) fun n => rank (run n)
  obtain ⟨action, may, taken⟩ := steps n
  have reached := Reachable.endless (fun n => (steps n).imp fun _ taken => taken.2) start n
  exact rises (falls _ action _ reached may taken)

/-- A counter that never falls and rises time and again until the goal is met,
but stays within a bound, makes the run meet the goal. -/
theorem eventually_of_count {run : Nat → State} (goal : State → Prop) (count : State → Nat)
    (bound : Nat) (bounded : ∀ n, count (run n) ≤ bound)
    (kept : ∀ n, ¬ goal (run n) → count (run n) ≤ count (run (n + 1)))
    (rises : ∀ n, ¬ goal (run n) → ∃ m, n ≤ m ∧ count (run m) < count (run (m + 1))) :
    ∃ n, goal (run n) := by
  by_contra never
  have unmet : ∀ n, ¬ goal (run n) := fun n met => never ⟨n, met⟩
  have monotone : Monotone fun n => count (run n) :=
    monotone_nat_of_le_succ fun n => kept n (unmet n)
  have passes : ∀ value, ∃ n, value ≤ count (run n) := by
    intro value
    induction value with
    | zero => exact ⟨0, Nat.zero_le _⟩
    | succ value ih =>
      obtain ⟨n, reached⟩ := ih
      obtain ⟨m, later, rise⟩ := rises n (unmet n)
      exact ⟨m + 1, Nat.lt_of_le_of_lt (Nat.le_trans reached (monotone later)) rise⟩
  obtain ⟨n, beyond⟩ := passes (bound + 1)
  exact Nat.not_le.mpr beyond (bounded n)

end Machine

end Lspd.Process
