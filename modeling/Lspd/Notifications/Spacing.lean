import Lspd.Notifications.Service

/-! When a payment is notified again. The time of a notification is read before the
posts and written after them, so calls that overlap do not see each other. -/

namespace Lspd.Notifications

open Lspd.Process

/-- The posts that the call has started. -/
def Phase.round : Phase → Option Round
  | .posting round _ _ => some round
  | .returned round _ => round
  | _ => none

/-- One of its posts was answered well. -/
def Phase.Succeeded : Phase → Prop
  | .posting _ _ notified => notified = true
  | .returned (some _) result => result = .ok true
  | _ => False

/-- The call has read the time of the last notification and has not returned. -/
def Phase.Active : Phase → Prop
  | .checking _ | .fetching | .posting .. => True
  | _ => False

/-- The call cannot post within the interval after the given time. -/
def Phase.Shielded (clock time : Nat) : Phase → Prop
  | .checking lastTime =>
    (∃ last, lastTime = some last ∧ time ≤ last) ∨ time + minNotificationInterval ≤ clock
  | .fetching => time + minNotificationInterval ≤ clock
  | _ => True

theorem Phase.Shielded.mono {phase : Phase} {clock now time : Nat} (later : clock ≤ now)
    (shielded : phase.Shielded clock time) : phase.Shielded now time := by
  cases phase with
  | checking lastTime => exact shielded.imp_right fun due => Nat.le_trans due later
  | fetching => exact Nat.le_trans shielded later
  | _ => trivial

theorem Phase.Shielded.of_not_active {phase : Phase} {clock time : Nat} (inactive : ¬ phase.Active) :
    phase.Shielded clock time := by
  cases phase with
  | checking | fetching => exact absurd trivial inactive
  | _ => trivial

theorem Phase.eq_returned {phase : Phase} {round : Round} (inactive : ¬ phase.Active)
    (started : phase.round = some round) (succeeded : phase.Succeeded) :
    phase = .returned (some round) (.ok true) := by
  cases phase with
  | returned other result =>
    obtain rfl : other = some round := started
    obtain rfl : result = .ok true := succeeded
    rfl
  | posting => exact absurd trivial inactive
  | _ => cases started

namespace State

section Inv

variable (args : Nat → String × String)

/-- No posts for a client and payment were started less than the interval after earlier
ones that succeeded. -/
def Spaced (s : State) : Prop :=
  ∀ m n first second, args m = args n → (s.calls m).round = some first →
    (s.calls n).round = some second → first.number < second.number → (s.calls m).Succeeded →
      first.start + minNotificationInterval ≤ second.start

/-- Calls for the same client and payment come one after the other. -/
def Alone (s : State) : Action → Prop
  | .check n => ∀ m, m ≠ n → args m = args n → ¬ (s.calls m).Active
  | _ => True

structure Inv (s : State) : Prop where
  alone : ∀ m n, m ≠ n → args m = args n → (s.calls m).Active → ¬ (s.calls n).Active
  counted : ∀ n round, (s.calls n).round = some round →
    round.number < s.rounds ∧ round.start ≤ s.clock
  recorded : ∀ n round, s.calls n = .returned (some round) (.ok true) →
    (∃ last, s.recentNotifications (identifier args n) = some last ∧ round.start ≤ last) ∨
      round.start + minNotificationInterval ≤ s.clock
  shielded : ∀ m n round, m ≠ n → args m = args n →
    s.calls m = .returned (some round) (.ok true) → (s.calls n).Shielded s.clock round.start
  ended : ∀ m n first second, args m = args n → (s.calls m).round = some first →
    (s.calls n).round = some second → first.number < second.number → ¬ (s.calls m).Active
  spaced : s.Spaced args

end Inv

variable {args : Nat → String × String} {s t : State} {n : Nat} {phase : Phase} {action : Action}

@[simp]
theorem calls_setCall (m : Nat) :
    (s.setCall n phase).calls m = if m = n then phase else s.calls m :=
  Function.update_apply ..

/-- A step of a call that keeps its round while no other call for the payment is active.
The call leaves a time behind when it is done and has succeeded. -/
theorem Inv.setCall (inv : s.Inv args) (same : phase.round = (s.calls n).round)
    (last : (s.calls n).Active ∨ (s.calls n).round = none)
    (alone : ∀ m, m ≠ n → args m = args n → ¬ (s.calls m).Active)
    (shield : ∀ m round, m ≠ n → args m = args n →
      s.calls m = .returned (some round) (.ok true) → phase.Shielded s.clock round.start)
    (done : ∀ round, phase = .returned (some round) (.ok true) →
      ∃ last, s.recentNotifications (identifier args n) = some last ∧ round.start ≤ last) :
    (s.setCall n phase).Inv args := by
  have round (m : Nat) : ((s.setCall n phase).calls m).round = (s.calls m).round := by
    rw [calls_setCall]
    split_ifs with own
    · rw [same, own]
    · rfl
  -- a call with a later round behind it has returned, so it is not the one that moves
  have other (one two : Nat) (first second : Round) (equal : args one = args two)
      (atFirst : (s.calls one).round = some first) (atSecond : (s.calls two).round = some second)
      (less : first.number < second.number) : one ≠ n := by
    rintro rfl
    rcases last with active | unstarted
    · exact inv.ended one two first second equal atFirst atSecond less active
    · exact nomatch unstarted.symm.trans atFirst
  refine ⟨?_, ?_, ?_, ?_, ?_, ?_⟩
  · intro one two different equal first second
    simp only [calls_setCall] at first second
    split_ifs at first second with atOne atTwo atTwo
    · exact different (atOne.trans atTwo.symm)
    · exact alone two atTwo (atOne ▸ equal.symm) second
    · exact alone one atOne (atTwo ▸ equal) first
    · exact inv.alone one two different equal first second
  · intro m started
    rw [round]
    exact inv.counted m started
  · intro m started returned
    rw [calls_setCall] at returned
    split_ifs at returned with own
    · exact .inl (own ▸ done started returned)
    · exact inv.recorded m started returned
  · intro one two started different equal returned
    rw [calls_setCall] at returned ⊢
    by_cases atOne : one = n
    · subst atOne
      rw [if_neg different.symm]
      exact .of_not_active (alone two different.symm equal.symm)
    · rw [if_neg atOne] at returned
      split_ifs with atTwo
      · subst atTwo
        exact shield one started different equal returned
      · exact inv.shielded one two started different equal returned
  · intro one two first second equal atFirst atSecond less
    rw [round] at atFirst atSecond
    rw [calls_setCall, if_neg (other one two first second equal atFirst atSecond less)]
    exact inv.ended one two first second equal atFirst atSecond less
  · intro one two first second equal atFirst atSecond less succeeded
    rw [round] at atFirst atSecond
    rw [calls_setCall, if_neg (other one two first second equal atFirst atSecond less)] at succeeded
    exact inv.spaced one two first second equal atFirst atSecond less succeeded

theorem Inv.move (inv : s.Inv args) (active : (s.calls n).Active)
    (same : phase.round = (s.calls n).round)
    (shield : ∀ time, (s.calls n).Shielded s.clock time → phase.Shielded s.clock time)
    (done : ∀ round, phase = .returned (some round) (.ok true) →
      ∃ last, s.recentNotifications (identifier args n) = some last ∧ round.start ≤ last) :
    (s.setCall n phase).Inv args := by
  refine inv.setCall same (.inl active) (fun m different equal => ?_) ?_ done
  · exact inv.alone n m different.symm equal.symm active
  · intro m round different equal returned
    exact shield _ (inv.shielded m n round different equal returned)

/-- What the call reads shields it from the notifications that have been recorded. -/
theorem Inv.check (inv : s.Inv args) (here : s.calls n = .idle)
    (alone : ∀ m, m ≠ n → args m = args n → ¬ (s.calls m).Active) :
    (s.setCall n (.checking (s.recentNotifications (identifier args n)))).Inv args := by
  refine inv.setCall (by rw [here]; rfl) (.inr (by rw [here]; rfl)) alone ?_ nofun
  intro m round different equal returned
  have recorded := inv.recorded m round returned
  rw [identifier, equal] at recorded
  exact recorded

theorem Inv.tick (inv : s.Inv args) {now : Nat} (later : s.clock ≤ now) :
    State.Inv args { s with clock := now } := by
  refine ⟨inv.alone, ?_, ?_, ?_, inv.ended, inv.spaced⟩
  · intro n round started
    obtain ⟨number, start⟩ := inv.counted n round started
    exact ⟨number, Nat.le_trans start later⟩
  · intro n round returned
    exact (inv.recorded n round returned).imp_right fun due => Nat.le_trans due later
  · intro m n round different equal returned
    exact (inv.shielded m n round different equal returned).mono later

theorem calls_startPosts {left : List String} (m : Nat) : (s.startPosts n left).calls m =
    if m = n then .posting ⟨s.rounds, s.clock⟩ left false else s.calls m :=
  calls_setCall m

/-- The new round comes after all others. -/
theorem Inv.round_startPosts (inv : s.Inv args) {left : List String} {m : Nat} {round : Round}
    (started : ((s.startPosts n left).calls m).round = some round) :
    m = n ∧ round = ⟨s.rounds, s.clock⟩ ∨
      m ≠ n ∧ (s.calls m).round = some round ∧ round.number < s.rounds ∧ round.start ≤ s.clock := by
  rw [calls_startPosts] at started
  split_ifs at started with own
  · exact .inl ⟨own, (Option.some.inj started).symm⟩
  · exact .inr ⟨own, started, inv.counted m round started⟩

/-- When there are two rounds and one is new, it is the second. -/
theorem Inv.earlier_startPosts (inv : s.Inv args) {left : List String} {one two : Nat}
    {first second : Round} (atFirst : ((s.startPosts n left).calls one).round = some first)
    (atSecond : ((s.startPosts n left).calls two).round = some second)
    (less : first.number < second.number) : one ≠ n ∧ (s.calls one).round = some first := by
  rcases inv.round_startPosts atFirst with ⟨_, rfl⟩ | ⟨other, started, _⟩
  · rcases inv.round_startPosts atSecond with ⟨_, rfl⟩ | ⟨_, _, before, _⟩
    · exact absurd less (Nat.lt_irrefl _)
    · exact absurd less (Nat.lt_asymm before)
  · exact ⟨other, started⟩

/-- Nothing that succeeded in the last interval is left when a call posts. -/
theorem Inv.startPosts (inv : s.Inv args) (here : s.calls n = .fetching) (left : List String) :
    (s.startPosts n left).Inv args := by
  have alone (m : Nat) (different : m ≠ n) (equal : args m = args n) : ¬ (s.calls m).Active := by
    refine inv.alone n m different.symm equal.symm ?_
    rw [here]
    trivial
  refine ⟨?_, ?_, ?_, ?_, ?_, ?_⟩
  · intro one two different equal first second
    rw [calls_startPosts] at first second
    split_ifs at first second with atOne atTwo atTwo
    · exact different (atOne.trans atTwo.symm)
    · exact alone two atTwo (atOne ▸ equal.symm) second
    · exact alone one atOne (atTwo ▸ equal) first
    · exact inv.alone one two different equal first second
  · intro m round started
    rcases inv.round_startPosts started with ⟨_, rfl⟩ | ⟨_, _, number, start⟩
    · exact ⟨Nat.lt_succ_self _, Nat.le_refl _⟩
    · exact ⟨Nat.lt_succ_of_lt number, start⟩
  · intro m round returned
    rw [calls_startPosts] at returned
    split_ifs at returned
    exact inv.recorded m round returned
  · intro one two round different equal returned
    rw [calls_startPosts] at returned ⊢
    split_ifs at returned
    split_ifs
    · trivial
    · exact inv.shielded one two round different equal returned
  · intro one two first second equal atFirst atSecond less
    obtain ⟨other, started⟩ := inv.earlier_startPosts atFirst atSecond less
    rw [calls_startPosts, if_neg other]
    rcases inv.round_startPosts atSecond with ⟨rfl, _⟩ | ⟨_, next, _⟩
    · exact alone one other equal
    · exact inv.ended one two first second equal started next less
  · intro one two first second equal atFirst atSecond less succeeded
    obtain ⟨other, started⟩ := inv.earlier_startPosts atFirst atSecond less
    rw [calls_startPosts, if_neg other] at succeeded
    rcases inv.round_startPosts atSecond with ⟨rfl, rfl⟩ | ⟨_, next, _⟩
    · have returned := Phase.eq_returned (alone one other equal) started succeeded
      have shielded := inv.shielded one two first other equal returned
      rwa [here] at shielded
    · exact inv.spaced one two first second equal started next less succeeded

/-- A time is written, or an old one is removed. -/
theorem Inv.setRecent (inv : s.Inv args) {id : String} {time : Option Nat}
    (kept : time = some s.clock ∨ ∃ lastTime, s.recentNotifications id = some lastTime ∧
      lastTime + minNotificationInterval < s.clock) : (s.setRecent id time).Inv args := by
  refine ⟨inv.alone, inv.counted, ?_, inv.shielded, inv.ended, inv.spaced⟩
  intro n round returned
  have recorded := inv.recorded n round returned
  by_cases own : identifier args n = id
  · subst own
    rcases kept with rfl | ⟨lastTime, found, old⟩
    · have started : (s.calls n).round = some round := congrArg Phase.round returned
      exact .inl ⟨s.clock, Function.update_self .., (inv.counted n round started).2⟩
    · rcases recorded with ⟨last, at_, before⟩ | due
      · obtain rfl := Option.some.inj (found.symm.trans at_)
        exact .inr (Nat.le_trans (Nat.add_le_add_right before _) (Nat.le_of_lt old))
      · exact .inr due
  · refine recorded.imp_left fun ⟨last, at_, before⟩ => ⟨last, ?_, before⟩
    exact (Function.update_of_ne own ..).trans at_

theorem Inv.step (inv : s.Inv args) (alone : s.Alone args action) (step : Step args s action t) :
    t.Inv args := by
  cases step with
  | tick now later => exact inv.tick later
  | check n here free => exact inv.check here alone
  | recent n here soon =>
    exact inv.move (by rw [here]; trivial) (by rw [here]; rfl) (fun _ _ => trivial) nofun
  | proceed n here due =>
    refine inv.move (by rw [here]; trivial) (by rw [here]; rfl) (fun time shielded => ?_) nofun
    rw [here] at shielded
    rcases shielded with ⟨last, rfl, before⟩ | passed
    · have passed : last + minNotificationInterval ≤ s.clock := by simpa [recently] using due
      exact Nat.le_trans (Nat.add_le_add_right before _) passed
    · exact passed
  | fail n err here =>
    exact inv.move (by rw [here]; trivial) (by rw [here]; rfl) (fun _ _ => trivial) nofun
  | post n registrations here => exact inv.startPosts here registrations
  | answer n url response here pending =>
    exact inv.move (by rw [here]; trivial) (by rw [here]; rfl) (fun _ _ => trivial) nofun
  | giveUp n here =>
    exact inv.move (by rw [here]; trivial) (by rw [here]; rfl) (fun _ _ => trivial) nofun
  | @record round n here free =>
    have recorded : (s.setRecent (identifier args n) (some s.clock)).Inv args :=
      inv.setRecent (.inl rfl)
    have start := (inv.counted n round (by rw [here]; rfl)).2
    refine recorded.move (by rw [State.setRecent, here]; trivial) (by rw [State.setRecent, here]; rfl)
      (fun _ _ => trivial) ?_
    rintro _ ⟨⟩
    exact ⟨s.clock, Function.update_self .., start⟩
  | clean ids free nodup all =>
    exact ⟨inv.alone, inv.counted, inv.recorded, inv.shielded, inv.ended, inv.spaced⟩
  | @remove ids lastTime id here found old =>
    have removed : (s.setRecent id none).Inv args := inv.setRecent (.inr ⟨lastTime, found, old⟩)
    exact ⟨inv.alone, inv.counted, removed.recorded, inv.shielded, inv.ended, inv.spaced⟩
  | keep here found young =>
    exact ⟨inv.alone, inv.counted, inv.recorded, inv.shielded, inv.ended, inv.spaced⟩
  | cleaned here =>
    exact ⟨inv.alone, inv.counted, inv.recorded, inv.shielded, inv.ended, inv.spaced⟩

theorem Inv.initial (start : (machine args).Initial s) : s.Inv args := by
  have idle (n : Nat) : s.calls n = .idle := congrFun (congrArg State.calls start) n
  constructor <;> simp [idle, Phase.Active, Phase.round, Spaced]

theorem Inv.reachable (reached : (machine args).ReachableWhen (Alone args) s) : s.Inv args :=
  reached.induct (Inv args) (fun _ start => .initial start) fun _ _ _ _ inv alone taken =>
    inv.step alone taken

end State

/-- A payment that was notified is not notified again within the interval, in every run
in which calls for the same client and payment do not overlap. -/
theorem spaced_when_alone (args : Nat → String × String) (s : State)
    (reached : (machine args).ReachableWhen (State.Alone args) s) : s.Spaced args :=
  (State.Inv.reachable reached).spaced

section Samples

def sampleArgs (_ : Nat) : String × String := ("02", "4a5e")

def sampleStart : State := ⟨0, fun _ => none, none, fun _ => .idle, 0⟩

/-- The same payment is notified once, and again after the interval. -/
theorem spaced_when_alone_sample :
    ∃ s second, (machine sampleArgs).ReachableWhen (State.Alone sampleArgs) s ∧
      s.calls 0 = .returned (some ⟨0, 0⟩) (.ok true) ∧ (s.calls 1).round = some second ∧
      0 + minNotificationInterval ≤ second.start := by
  have start : (machine sampleArgs).ReachableWhen (State.Alone sampleArgs) sampleStart := .start rfl
  have checked := start.step (by intro m _ _ active; exact active) (.check 0 rfl rfl)
  have fetching := checked.step (by exact trivial) (.proceed 0 rfl rfl)
  have posting := fetching.step (by exact trivial) (.post 0 ["hook"] rfl)
  have answered := posting.step (by exact trivial)
    (.answer 0 "hook" (.ok 200) rfl (List.mem_singleton_self _))
  have recorded := answered.step (by exact trivial) (.record 0 rfl rfl)
  have waited := recorded.step (by exact trivial) (.tick minNotificationInterval (Nat.zero_le _))
  have again := waited.step (by rintro (_ | m) _ _ active <;> exact active) (.check 1 rfl rfl)
  have due := again.step (by exact trivial) (.proceed 1 rfl (by decide))
  have last := due.step (by exact trivial) (.post 1 ["hook"] rfl)
  exact ⟨_, ⟨1, minNotificationInterval⟩, last, rfl, rfl,
    spaced_when_alone sampleArgs _ last 0 1 ⟨0, 0⟩ _ rfl rfl rfl (by decide) rfl⟩

/-- Two calls for the same payment overlap, and both post at once. -/
theorem overlapping_calls_post_twice :
    ∃ s, (machine sampleArgs).Reachable s ∧ ¬ s.Spaced sampleArgs := by
  have start : (machine sampleArgs).Reachable sampleStart := .start rfl
  have checked := (start.step (.check 0 rfl rfl)).step (.check 1 rfl rfl)
  have fetching := (checked.step (.proceed 0 rfl rfl)).step (.proceed 1 rfl rfl)
  have posting := (fetching.step (.post 0 ["hook"] rfl)).step (.post 1 ["hook"] rfl)
  have answered := posting.step (.answer 0 "hook" (.ok 200) rfl (List.mem_singleton_self _))
  have twice := answered.step (.answer 1 "hook" (.ok 200) rfl (List.mem_singleton_self _))
  have recorded := (twice.step (.record 0 rfl rfl)).step (.record 1 rfl rfl)
  refine ⟨_, recorded, fun spaced => ?_⟩
  have apart := spaced 0 1 ⟨0, 0⟩ ⟨1, 0⟩ rfl rfl rfl (by decide) rfl
  exact absurd apart (by decide)

end Samples

end Lspd.Notifications
