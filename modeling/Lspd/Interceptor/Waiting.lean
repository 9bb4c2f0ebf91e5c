import Lspd.Interceptor.System

/-! The wait of `Intercept` for the channel it opened: how many polls it takes
and when it ends. -/

namespace Lspd.Interceptor

open Lspd.Common Lspd.Lightning Lspd.Postgres Lspd.Process
open Lspd.Process.Program (forever leads_ask leads_leaves leads_next)

/-- What the outside does during the wait: the results of `GetChannel` in the
order of the calls, the time each call takes together with what the timer before
it was late, and the replies to the other calls. -/
structure Outside where
  channels : Nat → Option GetChannelResult × Option String
  delay : Nat → Nat
  other : (op : Op) → Reply op

structure Moment where
  time : Time
  polls : Nat

namespace Outside

variable (outside : Outside)

def answer (moment : Moment) : (op : Op) → Reply op × Moment
  | .getChannel _ _ => (outside.channels moment.polls,
      ⟨moment.time + outside.delay moment.polls, moment.polls + 1⟩)
  | .now => (moment.time, moment)
  | .sleep duration => ((), ⟨moment.time + duration, moment.polls⟩)
  | op => (outside.other op, moment)

/-- The time since the beginning of the wait at which a poll begins, if none
before it ends the wait. -/
def elapsed : Nat → Time
  | 0 => 0
  | poll + 1 => elapsed poll + outside.delay poll + second

/-- The call of this poll returns past the deadline. -/
def Late (poll : Nat) : Prop := 60 * second < outside.elapsed poll + outside.delay poll

/-- The poll finds a channel with a confirmed scid or an alias. -/
def Found (poll : Nat) : Prop :=
  ∃ channel scid, (outside.channels poll).1 = some channel ∧
    channel.confirmedScid.or channel.aliasScid = some scid

/-- The poll finds a channel with neither. -/
def Unidentified (poll : Nat) : Prop :=
  ∃ channel, (outside.channels poll).1 = some channel ∧
    channel.confirmedScid = none ∧ channel.aliasScid = none

end Outside

/-- The wait ends with a result that resumes or fails the htlc. A poll that does
not end it takes its call and a second; every poll but the last returns before
the deadline, and the last is the 62nd at most. -/
def Ends (outside : Outside) (start : Time) (program : Code InterceptResult) : Prop :=
  ∃ last result, program.Leads outside.answer ⟨start, 0⟩
      ⟨start + outside.elapsed last + outside.delay last, last + 1⟩ (.done result) ∧
    last < 62 ∧ (∀ poll < last, ¬ outside.Late poll) ∧
    (result.action = .resumeWithOnion ∨ result = .failWithCode failureTemporaryChannelFailure)

section outside

variable {outside : Outside}

theorem Outside.cases (poll : Nat) :
    (outside.channels poll).1 = none ∨ outside.Unidentified poll ∨ outside.Found poll := by
  match found : (outside.channels poll).1 with
  | none => exact .inl rfl
  | some channel =>
    right
    match identified : channel.confirmedScid.or channel.aliasScid with
    | none => exact .inl ⟨channel, found, Option.or_eq_none_iff.mp identified⟩
    | some scid => exact .inr ⟨channel, scid, found, identified⟩

theorem Outside.le_elapsed (poll : Nat) : 1000000000 * (poll : Int) ≤ outside.elapsed poll := by
  induction poll with
  | zero => exact Int.le_refl 0
  | succ poll ih =>
    change 1000000000 * ((poll + 1 : Nat) : Int) ≤
      (outside.elapsed poll : Int) + (outside.delay poll : Int) + 1000000000
    omega

theorem Outside.late_of_le {poll : Nat} (many : 61 ≤ poll) : outside.Late poll := by
  have begun := outside.le_elapsed poll
  change (60 * 1000000000 : Int) < (outside.elapsed poll : Int) + (outside.delay poll : Int)
  omega

theorem Outside.answer_polls (moment : Moment) (op : Op) :
    moment.polls ≤ (outside.answer moment op).2.polls := by
  cases op with
  | getChannel peerID channelPoint => exact Nat.le_succ _
  | _ => exact Nat.le_refl _

end outside

section waiting

variable {outside : Outside} {i : Interceptor} {req : InterceptRequest} {info : PaymentInfo}
  {channelPoint : OutPoint} {amt : Int64} {start : Time} {poll : Nat}

/-- The wait before a poll. -/
abbrev wait (i : Interceptor) (req : InterceptRequest) (info : PaymentInfo)
    (channelPoint : OutPoint) (amt : Int64) (start : Time) : Code InterceptResult :=
  forever (i.pollChannel req info channelPoint amt (start + 60 * second)) ()

variable (outside start poll) in
/-- The moment a poll begins. -/
def Outside.begins : Moment := ⟨start + outside.elapsed poll, poll⟩

variable (outside start poll) in
/-- The moment the call of a poll returns. -/
def Outside.returns : Moment := ⟨start + outside.elapsed poll + outside.delay poll, poll + 1⟩

theorem Outside.answer_getChannel {peerID : Bytes} :
    outside.answer (outside.begins start poll) (.getChannel peerID channelPoint) =
      (outside.channels poll, outside.returns start poll) := rfl

theorem Outside.answer_now {moment : Moment} :
    outside.answer moment .now = (moment.time, moment) := rfl

theorem Outside.past_deadline_iff :
    start + 60 * second < (outside.returns start poll).time ↔ outside.Late poll := by
  rw [Outside.returns, Outside.Late, Int.add_assoc]
  exact Int.add_lt_add_iff_left start

theorem Outside.begins_succ : outside.begins start (poll + 1) =
    ⟨(outside.returns start poll).time + second, (outside.returns start poll).polls⟩ := by
  rw [begins, elapsed, returns, Int.add_assoc, Int.add_assoc, Int.add_assoc]

theorem unidentified_waits (found : outside.Unidentified poll) :
    (wait i req info channelPoint amt start).Leads outside.answer (outside.begins start poll)
      (outside.begins start (poll + 1)) (wait i req info channelPoint amt start) := by
  obtain ⟨channel, found, unconfirmed, unaliased⟩ := found
  apply leads_next
  unfold pollChannel
  apply leads_ask
  rw [Outside.answer_getChannel, found]
  simp only [unconfirmed, unaliased, Option.or_none]
  apply leads_ask
  rw [Outside.begins_succ]
  exact .here

theorem missing_waits (missing : (outside.channels poll).1 = none) (early : ¬ outside.Late poll) :
    (wait i req info channelPoint amt start).Leads outside.answer (outside.begins start poll)
      (outside.begins start (poll + 1)) (wait i req info channelPoint amt start) := by
  apply leads_next
  unfold pollChannel
  apply leads_ask
  rw [Outside.answer_getChannel, missing]
  apply leads_ask
  rw [Outside.answer_now, if_neg (by rwa [Outside.past_deadline_iff])]
  apply leads_ask
  rw [Outside.begins_succ]
  exact .here

theorem missing_fails (missing : (outside.channels poll).1 = none) (late : outside.Late poll) :
    (wait i req info channelPoint amt start).Leads outside.answer (outside.begins start poll)
      (outside.returns start poll) (.done (.failWithCode failureTemporaryChannelFailure)) := by
  apply leads_leaves
  unfold pollChannel
  apply leads_ask
  rw [Outside.answer_getChannel, missing]
  apply leads_ask
  rw [Outside.answer_now, if_pos (Outside.past_deadline_iff.mpr late)]
  exact .here

theorem found_resumes (found : outside.Found poll) :
    ∃ result, (wait i req info channelPoint amt start).Leads outside.answer
        (outside.begins start poll) (outside.returns start poll) (.done result) ∧
      result.action = .resumeWithOnion := by
  obtain ⟨channel, scid, found, identified⟩ := found
  refine ⟨i.onionResult info channelPoint amt scid, ?_, rfl⟩
  apply leads_leaves
  unfold pollChannel
  apply leads_ask
  rw [Outside.answer_getChannel, found]
  simp only [identified]
  apply leads_ask
  apply leads_ask
  apply leads_ask
  apply leads_ask
  exact .here

/-- A poll in time that does not find the channel goes on to the next one. -/
theorem waits_on (early : ¬ outside.Late poll) (unfound : ¬ outside.Found poll) :
    (wait i req info channelPoint amt start).Leads outside.answer (outside.begins start poll)
      (outside.begins start (poll + 1)) (wait i req info channelPoint amt start) := by
  rcases outside.cases poll with missing | unidentified | found
  · exact missing_waits missing early
  · exact unidentified_waits unidentified
  · exact absurd found unfound

theorem wait_reaches (early : ∀ earlier < poll, ¬ outside.Late earlier)
    (unfound : ∀ earlier < poll, ¬ outside.Found earlier) :
    (wait i req info channelPoint amt start).Leads outside.answer (outside.begins start 0)
      (outside.begins start poll) (wait i req info channelPoint amt start) := by
  induction poll with
  | zero => exact .here
  | succ poll ih =>
    have before := ih (fun earlier less => early earlier (by omega))
      (fun earlier less => unfound earlier (by omega))
    exact before.trans (waits_on (early poll (by omega)) (unfound poll (by omega)))

/-- A wait that has not ended makes another poll before it does. -/
theorem polls_of_ends {moment : Moment} {result : InterceptResult}
    (ends : (wait i req info channelPoint amt start).Leads outside.answer
      (outside.begins start poll) moment (.done result)) : poll < moment.polls := by
  cases ends with
  | unroll ends =>
    cases ends with
    | call ends => exact ends.mono Moment.polls outside.answer_polls

/-- From a poll on, the wait ends in time unless a first late poll finds a
channel with neither scid. -/
theorem wait_ends (condition : ∀ poll, outside.Unidentified poll → outside.Late poll →
      ∃ earlier < poll, outside.Late earlier ∨ outside.Found earlier)
    {left : Nat} (bound : poll + left = 62) (early : ∀ earlier < poll, ¬ outside.Late earlier)
    (unfound : ∀ earlier < poll, ¬ outside.Found earlier) :
    ∃ last result, (wait i req info channelPoint amt start).Leads outside.answer
        (outside.begins start poll) (outside.returns start last) (.done result) ∧
      last < 62 ∧ (∀ earlier < last, ¬ outside.Late earlier) ∧
      (result.action = .resumeWithOnion ∨
        result = .failWithCode failureTemporaryChannelFailure) := by
  -- Induction on the polls that are left: after 61 polls the next one is late.
  induction left generalizing poll with
  | zero => exact absurd (Outside.late_of_le (by omega)) (early 61 (by omega))
  | succ left ih =>
    by_cases found : outside.Found poll
    · obtain ⟨result, leads, resumed⟩ := found_resumes found
      exact ⟨poll, result, leads, by omega, early, .inl resumed⟩
    by_cases late : outside.Late poll
    · rcases outside.cases poll with missing | unidentified | identified
      · exact ⟨poll, _, missing_fails missing late, by omega, early, .inr rfl⟩
      · obtain ⟨earlier, less, reached⟩ := condition poll unidentified late
        rcases reached with past | known
        · exact absurd past (early earlier less)
        · exact absurd known (unfound earlier less)
      · exact absurd identified found
    · have next : ∀ earlier < poll + 1, ¬ outside.Late earlier :=
        Nat.forall_lt_succ_right.mpr ⟨early, late⟩
      obtain ⟨last, result, leads, rest⟩ :=
        ih (by omega) next (Nat.forall_lt_succ_right.mpr ⟨unfound, found⟩)
      exact ⟨last, result, (waits_on late found).trans leads, rest⟩

/-- What the whole call does from its start is what the wait does from its first poll. -/
theorem forwardHtlc_leads_iff
    (amount : forwardAmount info.outgoingAmountMsat req.outgoingAmountMsat
      info.incomingAmountMsat = some amt) {moment : Moment} {result : InterceptResult} :
    (i.forwardHtlc req info channelPoint).Leads outside.answer ⟨start, 0⟩ moment (.done result) ↔
      (wait i req info channelPoint amt start).Leads outside.answer (outside.begins start 0)
        moment (.done result) := by
  rw [Outside.begins, Outside.elapsed, Int.add_zero, forwardHtlc, amount]
  constructor
  · intro leads
    cases leads with
    | call leads => exact leads
  · intro leads
    exact leads_ask leads

/-- As long as the node lists the channel without any scid there is another poll. -/
theorem unidentified_never_ends (unidentified : ∀ poll, outside.Unidentified poll)
    {moment : Moment} {result : InterceptResult} :
    ¬ (wait i req info channelPoint amt start).Leads outside.answer (outside.begins start 0)
      moment (.done result) := by
  intro ends
  have reached (poll : Nat) : (wait i req info channelPoint amt start).Leads outside.answer
      (outside.begins start 0) (outside.begins start poll)
      (wait i req info channelPoint amt start) := by
    induction poll with
    | zero => exact .here
    | succ poll ih => exact ih.trans (unidentified_waits (unidentified poll))
  exact Nat.lt_irrefl _ (polls_of_ends ((reached moment.polls).continues ends))

variable (outside start)

/-- The wait ends in time exactly when the first `GetChannel` that returns past
the deadline, if the channel was not found by then, does not return a channel
with neither scid: only the answer "no channel" makes the code look at the clock. -/
theorem wait_ends_iff
    (amount : forwardAmount info.outgoingAmountMsat req.outgoingAmountMsat
      info.incomingAmountMsat = some amt) :
    Ends outside start (i.forwardHtlc req info channelPoint) ↔
      ∀ poll, outside.Unidentified poll → outside.Late poll →
        ∃ earlier < poll, outside.Late earlier ∨ outside.Found earlier := by
  simp only [Ends, forwardHtlc_leads_iff amount]
  constructor
  · rintro ⟨last, result, leads, _, early, _⟩ poll unidentified late
    by_contra first
    push Not at first
    have reached : (wait i req info channelPoint amt start).Leads outside.answer
        (outside.begins start 0) (outside.begins start (poll + 1))
        (wait i req info channelPoint amt start) :=
      (wait_reaches (fun earlier less => (first earlier less).1)
        fun earlier less => (first earlier less).2).trans (unidentified_waits unidentified)
    have another : poll + 1 < last + 1 := polls_of_ends (reached.continues leads)
    exact early poll (by omega) late
  · intro condition
    have none (what : Nat → Prop) : ∀ earlier < 0, ¬ what earlier := by simp
    exact wait_ends condition (Nat.zero_add 62) (none _) (none _)

end waiting

section sample

/-- Everything answers at once and without an error. -/
def sampleOutside (channel : Nat → Option GetChannelResult) : Outside where
  channels poll := (channel poll, none)
  delay _ := 0
  other op := (sampleScene.answer sampleSha256 sampleWorld op).1

/-- The wait for the channel of the sample payment. -/
def sampleWait : Code InterceptResult :=
  sampleInterceptor.forwardHtlc (samplePart 50000000 51000000) sampleInfo sampleScene.channelPoint

/-- A node that never finds the channel. -/
theorem wait_ends_sample : Ends (sampleOutside fun _ => none) sampleScene.now sampleWait := by
  apply (wait_ends_iff _ _ rfl).mpr
  rintro poll ⟨channel, found, _⟩ _
  cases found

/-- A node that lists the channel without any scid and goes on doing so: the htlc
is held for ever. -/
theorem unidentified_held :
    ¬ ∃ moment result, sampleWait.Leads (sampleOutside fun _ => some ⟨none, none, 1000⟩).answer
      ⟨sampleScene.now, 0⟩ moment (.done result) := by
  rintro ⟨moment, result, ends⟩
  exact unidentified_never_ends (fun poll => ⟨_, rfl, rfl, rfl⟩)
    ((forwardHtlc_leads_iff rfl).mp ends)

end sample

end Lspd.Interceptor
