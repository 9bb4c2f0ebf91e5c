import Lspd.Interceptor.Stopping
import Mathlib.Algebra.Ring.Nat

/-! An interceptor left to itself: with nothing from its node it comes to rest, its
handlers have ended then or are in `Send`, and once it is cancelled its loop has returned. -/

namespace Lspd.Interceptor

open Lspd.Common

/-- How many steps a `Stop` has taken. -/
def Stopping.progress : Stopping → Nat
  | .idle => 0
  | .waiting => 1
  | .waited => 2
  | .returned => 3

theorem Stopping.progress_le (stage : Stopping) : stage.progress ≤ 3 := by
  cases stage <;> decide

/-- A bound on the steps of the loop until it waits for its node. -/
def Loop.rank : Loop → Nat
  | .returned => 0
  | .leaving => 1
  | .connecting => 2
  | .pausing => 3
  | .receiving => 4
  | .consulting => 5
  | .checking => 6
  | .holding _ => 7

def Handling.rank {Request Response : Type} : Handling Request Response → Nat
  | .ended _ => 0
  | .finishing _ => 1
  | .sending _ => 2
  | .intercepting _ _ => 3
  | .started _ => 4
  | .held _ => 5

namespace Stream

variable {Request Response : Type} {backend : Backend Request Response}
variable {answers : InterceptRequest → InterceptResult → Prop}
variable {s later : Stream Request Response} {action : Action}

/-- What an interceptor does without anything from its node: not while it connects or
receives, and no `Send` returns, unless its context is cancelled. -/
structure Unprompted (s later : Stream Request Response) (action : Action) : Prop where
  silent : action = .internal
  alone : later.stops = s.stops
  free : later.loop ≠ s.loop → s.loop = .connecting ∨ s.loop = .receiving → s.cancelled = true
  unsent : s.cancelled = false → ∀ (n : Nat) (response : Response),
    s.handlings[n]? = some (.sending (some response)) →
      later.handlings[n]? = some (.sending (some response))

/-- A handler is in `Send`, which waits for the node while flow control does not let the
response through. -/
def Sending (s : Stream Request Response) : Prop :=
  s.cancelled = false ∧ ∃ (n : Nat) (response : Response),
    s.handlings[n]? = some (.sending (some response))

def rank (s : Stream Request Response) : Nat :=
  s.loop.rank + (s.handlings.map Handling.rank).sum

theorem sum_rank_set {handlings : List (Handling Request Response)} {n : Nat}
    {before after : Handling Request Response} (here : handlings[n]? = some before)
    (less : after.rank < before.rank) :
    ((handlings.set n after).map Handling.rank).sum < (handlings.map Handling.rank).sum := by
  induction handlings generalizing n with
  | nil => cases here
  | cons first rest ih =>
    cases n with
    | zero =>
      cases here
      simp only [List.set_cons_zero, List.map_cons, List.sum_cons]
      omega
    | succ n =>
      have fewer := ih here
      simp only [List.set_cons_succ, List.map_cons, List.sum_cons]
      omega

theorem Unprompted.falls (unprompted : Unprompted s later action)
    (step : Step backend answers s action later) : later.rank < s.rank := by
  obtain ⟨silent, alone, free, _⟩ := unprompted
  cases step with
  | connect here alive | refuse here alive =>
    have dead := free (by rw [here]; nofun) (.inl here)
    rw [alive] at dead
    cases dead
  | interrupt here =>
    rcases here with here | here <;> simp [rank, here, Loop.rank]
  | check here | proceed here | quit here | fail here | retry here | leave here =>
    simp [rank, here, Loop.rank]
  | receive | wait | cancel => cases silent
  | start n here held =>
    have loop : Loop.rank .checking < s.loop.rank := by simp [here, Loop.rank]
    exact Nat.add_lt_add loop (sum_rank_set held (by simp [Handling.rank]))
  | atOnce n here | ask n here | answer n here | send n here | done n here =>
    exact Nat.add_lt_add_left (sum_rank_set here (by simp [Handling.rank])) _
  | stop k here =>
    have same := congrFun alone k
    simp [setStop, here] at same

/-- A request in the hands of the loop has no handler yet. -/
def Holding (s : Stream Request Response) : Prop :=
  ∀ m, s.loop = .holding m → ∃ request, s.handlings[m]? = some (.held request)

theorem Holding.set {m : Nat} {before after : Handling Request Response} (holding : Holding s)
    (here : s.handlings[m]? = some before) (busy : ∀ request, before ≠ .held request) :
    Holding (s.set m after) := by
  intro k held
  obtain ⟨request, found⟩ := holding k held
  refine ⟨request, ?_⟩
  have other : m ≠ k := by
    rintro rfl
    exact busy request (Option.some.inj (here.symm.trans found))
  rw [Stream.set, List.getElem?_set_ne other]
  exact found

theorem Holding.step (holding : Holding s) (step : Step backend answers s action later) :
    Holding later := by
  cases step with
  | receive request here =>
    rintro m ⟨⟩
    exact ⟨request, List.getElem?_concat_length⟩
  | atOnce m here _ | ask m here _ | answer m here _ | send m here =>
    exact holding.set here nofun
  | done m here => exact holding.set here nofun
  | stop k _ | wait k _ _ | cancel k _ => exact holding
  | _ => exact nofun

theorem cancelled_of_step (step : Step backend answers s action later)
    (cancelled : s.cancelled = true) : later.cancelled = true := by
  cases step with
  | cancel k here => rfl
  | _ => exact cancelled

/-- One step of a `Stop`, and of nothing else. -/
theorem stops_of_step {k : Nat} {stage : Stopping} (step : Step backend answers s action later)
    (mine : later.stops = Function.update s.stops k stage) (moved : stage ≠ s.stops k) :
    later.loop = s.loop ∧ later.handlings = s.handlings ∧
      stage.progress = (s.stops k).progress + 1 ∧
      (stage = .returned → later.cancelled = true) := by
  have after : later.stops k = stage := by rw [mine, Function.update_self]
  cases step with
  | stop m here | wait m here | cancel m here =>
    by_cases same : k = m
    · subst same
      simp only [setStop, Function.update_self] at after
      subst after
      rw [here]
      exact ⟨rfl, rfl, rfl, by simp⟩
    · simp only [setStop, Function.update_of_ne same] at after
      exact absurd after.symm moved
  | _ => exact absurd after.symm moved

/-- A handler that is not in `Send` goes on. -/
theorem unprompted_set {n : Nat} {before after : Handling Request Response}
    (here : s.handlings[n]? = some before) (unsent : ∀ response, before ≠ .sending (some response))
    (doneWg : Nat) : Unprompted s { s.set n after with doneWg := doneWg } .internal := by
  refine ⟨rfl, rfl, fun moved => absurd rfl moved, fun _ m response waits => ?_⟩
  have other : n ≠ m := by
    rintro rfl
    exact unsent response (Option.some.inj (here.symm.trans waits))
  exact (List.getElem?_set_ne other).trans waits

/-- Without its node the interceptor does nothing. -/
def Still (backend : Backend Request Response)
    (answers : InterceptRequest → InterceptResult → Prop) (s : Stream Request Response) : Prop :=
  ∀ action later, Step backend answers s action later → ¬ Unprompted s later action

theorem Still.drained (still : Still backend answers s) (counted : Counted backend s)
    (total : ∀ req, ∃ result, answers req result) (free : ¬ Sending s) : s.doneWg = 0 := by
  by_contra busy
  have positive : 0 < s.handlings.countP Handling.running := by
    rw [← counted.count]
    omega
  obtain ⟨handling, member, running⟩ := List.countP_pos_iff.mp positive
  obtain ⟨m, here⟩ := List.mem_iff_getElem?.mp member
  cases handling with
  | held | ended => cases running
  | started request =>
    cases known : backend.prepare request with
    | error response => exact still _ _ (.atOnce m here known) (unprompted_set here nofun _)
    | ok req => exact still _ _ (.ask m here known) (unprompted_set here nofun _)
  | intercepting request req =>
    obtain ⟨result, answered⟩ := total req
    exact still _ _ (.answer m here answered) (unprompted_set here nofun _)
  | sending response =>
    cases response with
    | none => exact still _ _ (.send m here) (unprompted_set here nofun _)
    | some response =>
      have cancelled : s.cancelled = true := by
        by_contra alive
        exact free ⟨Bool.eq_false_iff.mpr alive, m, response, here⟩
      refine still _ _ (.send m here) ⟨rfl, rfl, fun moved => absurd rfl moved, fun alive => ?_⟩
      rw [cancelled] at alive
      cases alive
  | finishing sent => exact still _ _ (.done m here) (unprompted_set here nofun _)

theorem Still.returned (still : Still backend answers s) (holding : Holding s)
    (drained : s.doneWg = 0) (cancelled : s.cancelled = true) : s.loop = .returned := by
  have stuck : ∀ {later}, Step backend answers s .internal later → later.stops ≠ s.stops :=
    fun step alone => still _ _ step ⟨rfl, alone, fun _ _ => cancelled, fun alive => by
      rw [cancelled] at alive
      cases alive⟩
  cases here : s.loop with
  | connecting => exact (stuck (.interrupt (.inl here) cancelled) rfl).elim
  | checking => exact (stuck (.interrupt (.inr here) cancelled) rfl).elim
  | consulting =>
    cases wanted : s.stopRequested with
    | false => exact (stuck (.proceed here wanted) rfl).elim
    | true => exact (stuck (.quit here wanted) rfl).elim
  | receiving => exact (stuck (.fail here) rfl).elim
  | holding m =>
    obtain ⟨request, held⟩ := holding m here
    exact (stuck (.start m here held) rfl).elim
  | pausing => exact (stuck (.retry here) rfl).elim
  | leaving => exact (stuck (.leave here drained) rfl).elim
  | returned => rfl

end Stream

end Lspd.Interceptor
