import Lspd.Cln.Waiting
import Lspd.Interceptor.Handler

/-! How long `Intercept` holds an htlc on a cln node: the waits for the peer end with
the notification timeout, and the wait for the channel ends a minute after it began. -/

namespace Lspd.Interceptor

open Lspd.Common Lspd.Lightning Lspd.Postgres Lspd.Process
open Lspd.Process.Program (Concludes Lasts Timely TimedRuns iteration lasts_ask lasts_bind lasts_panic
  lasts_pure timely_ask timely_bind timely_forever timely_pure)
open Lspd.Cln.Waiting (Timeline Times waitUntil_timely online_polls active_polls)

/-- The calls of `Intercept` take at most the latency, whatever they return; the waits
take what the cln client takes for them. A channel that cln has as usable has a scid. -/
def timing (line : Timeline) (times : Times) : Timing Op Reply := fun now op reply later =>
  match op, reply with
  | .now, moment => now ≤ moment ∧ moment ≤ later ∧ later ≤ now + times.delay
  | .sleep duration, _ => now + duration ≤ later ∧ later ≤ now + duration + times.delay
  | .waitOnline peerID deadline, result => TimedRuns (Cln.Waiting.timing line times)
      (now, Cln.Waiting.waitOnline peerID deadline) (later, .done result)
  | .waitChannelActive peerID deadline, result => TimedRuns (Cln.Waiting.timing line times)
      (now, Cln.Waiting.waitChannelActive peerID deadline) (later, .done result)
  | .getChannel _ _, answer => now ≤ later ∧ later ≤ now + times.latency ∧
      ∀ chanResult, answer.1 = some chanResult →
        chanResult.confirmedScid.or chanResult.aliasScid ≠ none
  | _, _ => now ≤ later ∧ later ≤ now + times.latency

/-- How long `notifyAndWait` waits for a peer. -/
def notificationWait (i : Interceptor) : Int :=
  (i.time.parseDuration i.config.notificationTimeout).getD (60 * second)

theorem second_pos : (0 : Int) < second := by decide

section Lasts

variable {line : Timeline} {times : Times} {i : Interceptor} {req : InterceptRequest}
variable {info : PaymentInfo}

theorem takes_waitOnline {peerID : Bytes} {deadline now later : Int} {result : Except String Unit}
    (timed : timing line times now (.waitOnline peerID deadline) result later) :
    now ≤ later ∧ later ≤ max now (deadline + times.delay) + times.latency + times.delay := by
  obtain ⟨_, _, waited⟩ := (waitUntil_timely online_polls).returns timed
  exact waited.inTime

theorem takes_waitChannelActive {peerID : Bytes} {deadline now later : Int}
    {result : Except String Unit}
    (timed : timing line times now (.waitChannelActive peerID deadline) result later) :
    now ≤ later ∧ later ≤ max now (deadline + times.delay) + times.latency + times.delay := by
  obtain ⟨_, _, waited⟩ := (waitUntil_timely active_polls).returns timed
  exact waited.inTime

/-- Both waits are for the same deadline. -/
theorem notifyAndWait_lasts (paymentHash nextHop : Bytes) (isRegistered : Bool) :
    Lasts (timing line times) (i.notifyAndWait paymentHash nextHop isRegistered)
      (max 0 i.notificationWait + 3 * times.latency + 4 * times.delay) := by
  intro now
  have := times.latency_nonneg
  have := times.delay_nonneg
  refine timely_ask fun notified asked timed => ?_
  have asked_le : now ≤ asked ∧ asked ≤ now + times.latency := timed
  rcases notified with err | _ | _
  · exact timely_pure (by omega)
  · exact timely_pure (by omega)
  · refine timely_ask fun moment begun timed => ?_
    have begun_le : asked ≤ moment ∧ begun ≥ moment ∧ begun ≤ asked + times.delay := timed
    refine timely_ask fun reached waited timed => ?_
    have waited_le : begun ≤ waited ∧ waited ≤
        max begun (moment + i.notificationWait + times.delay) + times.latency + times.delay :=
      takes_waitOnline timed
    cases reached with
    | error err => exact timely_pure (by omega)
    | ok _ =>
      dsimp only
      split
      · exact timely_pure (by omega)
      · refine timely_ask fun active opened timed => ?_
        have opened_le : waited ≤ opened ∧ opened ≤
            max waited (moment + i.notificationWait + times.delay) + times.latency + times.delay :=
          takes_waitChannelActive timed
        cases active with
        | error err => exact timely_pure (by omega)
        | ok _ => exact timely_pure (by omega)

theorem openChannel_lasts (paymentHash destination : Bytes) (incomingAmountMsat : Int64)
    (tag : Option String) :
    Lasts (timing line times) (i.openChannel paymentHash destination incomingAmountMsat tag)
      (4 * times.latency) := by
  have := times.latency_nonneg
  refine lasts_ask (3 * times.latency) (fun _ _ _ timed => timed) (by omega) fun fee => ?_
  refine lasts_ask (2 * times.latency) (fun _ _ _ timed => timed) (by omega) fun opened => ?_
  cases opened with
  | error err => exact lasts_pure (by omega)
  | ok channelPoint =>
    refine lasts_ask times.latency (fun _ _ _ timed => timed) (by omega) fun _ => ?_
    refine lasts_ask 0 (fun _ _ _ timed => timed) (by omega) fun stored => ?_
    cases stored with
    | error err => exact lasts_pure (by omega)
    | ok _ => exact lasts_pure (by omega)

/-- What holds whenever the channel is asked for again. -/
def Retrying (times : Times) (start deadline began : Int) : Prop :=
  start ≤ began ∧ began ≤ deadline + second + 2 * times.delay

theorem pollChannel_timely {channelPoint : OutPoint} {amt : Int64} {start deadline began : Int}
    (retrying : Retrying times start deadline began) :
    Timely (timing line times) (iteration
      (fun _ later => Retrying times start deadline later ∧ began < later)
      (fun later _ => start ≤ later ∧
        later ≤ deadline + second + 3 * times.latency + 4 * times.delay))
      began (i.pollChannel req info channelPoint amt deadline ()) := by
  obtain ⟨after, before⟩ := retrying
  have := second_pos
  have := times.latency_nonneg
  have := times.delay_nonneg
  refine timely_ask fun answer asked timed => ?_
  obtain ⟨asked_ge, asked_le, scids⟩ : began ≤ asked ∧ asked ≤ began + times.latency ∧
    ∀ chanResult, answer.1 = some chanResult →
      chanResult.confirmedScid.or chanResult.aliasScid ≠ none := timed
  cases found : answer.1 with
  | some chanResult =>
    cases known : chanResult.confirmedScid.or chanResult.aliasScid with
    | none => exact absurd known (scids chanResult found)
    | some scid =>
      dsimp only
      rw [known]
      refine timely_ask fun lastUpdate read timed => ?_
      have read_le : asked ≤ lastUpdate ∧ read ≥ lastUpdate ∧ read ≤ asked + times.delay := timed
      refine timely_ask fun _ updated timed => ?_
      have updated_le : read ≤ updated ∧ updated ≤ read + times.latency := timed
      refine timely_ask fun forwardTime again timed => ?_
      have again_le : updated ≤ forwardTime ∧ again ≥ forwardTime ∧
        again ≤ updated + times.delay := timed
      refine timely_ask fun _ added timed => ?_
      have added_le : again ≤ added ∧ added ≤ again + times.latency := timed
      refine timely_pure ?_
      dsimp only [iteration]
      omega
  | none =>
    refine timely_ask fun moment read timed => ?_
    have read_le : asked ≤ moment ∧ read ≥ moment ∧ read ≤ asked + times.delay := timed
    split
    · exact timely_pure (by dsimp only [iteration]; omega)
    · rename_i inTime
      have inTime : ¬ deadline < moment := inTime
      refine timely_ask fun _ woken timed => ?_
      have woken_le : read + second ≤ woken ∧ woken ≤ read + second + times.delay := timed
      refine timely_pure ?_
      dsimp only [iteration, Retrying]
      omega

theorem pollChannel_ends {channelPoint : OutPoint} {amt : Int64} {start deadline : Int}
    (retrying : Retrying times start deadline start) :
    Timely (timing line times)
      (fun later _ => start ≤ later ∧
        later ≤ deadline + second + 3 * times.latency + 4 * times.delay)
      start (Program.forever (i.pollChannel req info channelPoint amt deadline) ()) := by
  refine timely_forever (fun _ began => Retrying times start deadline began)
    (fun began => (deadline + second + 2 * times.delay - began).toNat) retrying ?_
  intro _ began again
  refine (pollChannel_timely again).mono fun later outcome reached => ?_
  rcases outcome with _ | _ | result
  · exact reached
  · obtain ⟨next, longer⟩ := reached
    refine ⟨next, ?_⟩
    have := next.2
    omega
  · exact reached

/-- The wait for the channel goes on for a minute, and for one round more. -/
theorem forwardHtlc_lasts (channelPoint : OutPoint) :
    Lasts (timing line times) (i.forwardHtlc req info channelPoint)
      (61 * second + 3 * times.latency + 5 * times.delay) := by
  have := second_pos
  have := times.latency_nonneg
  have := times.delay_nonneg
  rw [forwardHtlc]
  split
  · exact lasts_panic (by omega)
  · intro now
    refine timely_ask fun moment begun timed => ?_
    have begun_le : now ≤ moment ∧ begun ≥ moment ∧ begun ≤ now + times.delay := timed
    have retrying : Retrying times begun (moment + 60 * second) begun := by
      refine ⟨Int.le_refl _, ?_⟩
      change begun ≤ (moment + 60 * second : Int) + second + 2 * times.delay
      omega
    refine (pollChannel_ends retrying).mono fun later _ reached => ?_
    have reached_le : begun ≤ later ∧
      later ≤ (moment + 60 * second : Int) + second + 3 * times.latency + 4 * times.delay := reached
    omega

theorem openAndForward_lasts :
    Lasts (timing line times) (i.openAndForward req info)
      (61 * second + 7 * times.latency + 5 * times.delay) := by
  have := second_pos
  have := times.latency_nonneg
  have := times.delay_nonneg
  have rest : (0 : Int) ≤ 61 * second + 3 * times.latency + 5 * times.delay := by omega
  refine lasts_bind (openChannel_lasts _ _ _ _) rest (by omega) fun opened => ?_
  cases opened with
  | error err => exact lasts_pure rest
  | ok channelPoint => exact forwardHtlc_lasts channelPoint

theorem takes_now (now moment later : Int) (timed : timing line times now .now moment later) :
    now ≤ later ∧ later ≤ now + times.delay := by
  obtain ⟨after, before, short⟩ := timed
  exact ⟨Int.le_trans after before, short⟩

theorem openIfValid_lasts (params : OpeningFeeParams) :
    Lasts (timing line times) (i.openIfValid req info params)
      (61 * second + 8 * times.latency + 6 * times.delay) := by
  have := second_pos
  have := times.latency_nonneg
  have := times.delay_nonneg
  rw [openIfValid]
  split
  · exact lasts_pure (by omega)
  · split
    · exact lasts_pure (by omega)
    · refine lasts_ask (61 * second + 8 * times.latency + 5 * times.delay) takes_now (by omega)
        fun moment => ?_
      split
      · refine lasts_ask (61 * second + 7 * times.latency + 5 * times.delay)
          (fun _ _ _ timed => timed) (by omega) fun cheaper => ?_
        split
        · exact openAndForward_lasts
        · exact lasts_pure (by omega)
      · exact openAndForward_lasts.mono (by omega)

theorem interceptRegistered_lasts :
    Lasts (timing line times) (i.interceptRegistered req info)
      (61 * second + 8 * times.latency + 7 * times.delay) := by
  have := second_pos
  have := times.latency_nonneg
  have := times.delay_nonneg
  rw [interceptRegistered]
  split
  · exact (forwardHtlc_lasts _).mono (by omega)
  · split
    · exact (openIfValid_lasts _).mono (by omega)
    · exact lasts_ask _ takes_now (by omega) fun now => openIfValid_lasts _

theorem notifyPeer_lasts (nextHop : Bytes) (isConnected : Bool) :
    Lasts (timing line times) (i.notifyPeer req info nextHop isConnected)
      (max 0 i.notificationWait + 3 * times.latency + 4 * times.delay) := by
  have := times.latency_nonneg
  have := times.delay_nonneg
  rw [notifyPeer]
  split
  · exact lasts_ask 0 (fun _ _ _ timed => timed) (by omega) fun _ => lasts_pure (Int.le_refl 0)
  · exact notifyAndWait_lasts _ _ _

theorem interceptNextHop_lasts (nextHop : Bytes) :
    Lasts (timing line times) (i.interceptNextHop req info nextHop)
      (max 0 i.notificationWait + 61 * second + 12 * times.latency + 11 * times.delay) := by
  have := second_pos
  have := times.latency_nonneg
  have := times.delay_nonneg
  have rest : (0 : Int) ≤ 61 * second + 8 * times.latency + 7 * times.delay := by omega
  refine lasts_ask (max 0 i.notificationWait + 61 * second + 11 * times.latency + 11 * times.delay)
    (fun _ _ _ timed => timed) (by omega) fun connected => ?_
  cases connected with
  | error err => exact lasts_pure (by omega)
  | ok isConnected =>
    dsimp only
    split
    · exact lasts_pure (by omega)
    · split
      · exact lasts_pure (by omega)
      · refine lasts_bind (notifyPeer_lasts _ _) rest (by omega) fun _ => ?_
        split
        · exact interceptRegistered_lasts
        · exact lasts_pure rest

theorem intercept_lasts :
    Lasts (timing line times) (i.intercept req)
      (max 0 i.notificationWait + 61 * second + 14 * times.latency + 11 * times.delay) := by
  have := second_pos
  have := times.latency_nonneg
  have := times.delay_nonneg
  refine lasts_ask (max 0 i.notificationWait + 61 * second + 13 * times.latency + 11 * times.delay)
    (fun _ _ _ timed => timed) (by omega) fun stored => ?_
  cases stored with
  | panic => exact lasts_panic (by omega)
  | error err => exact lasts_pure (by omega)
  | value info =>
    refine lasts_ask (max 0 i.notificationWait + 61 * second + 12 * times.latency +
      11 * times.delay) (fun _ _ _ timed => timed) (by omega) fun peer => ?_
    split
    · split
      · exact lasts_pure (by omega)
      · exact interceptNextHop_lasts _
    · split
      · exact interceptNextHop_lasts _
      · exact lasts_pure (by omega)

/-- No htlc is held forever on a cln node. `Intercept` ends within the notification
timeout and 61 seconds, and the time its 14 calls in a row and the clock may take. -/
theorem intercept_ends (line : Timeline) (times : Times) (i : Interceptor) (req : InterceptRequest)
    (now : Int) :
    Concludes (timing line times)
      (fun later _ => now ≤ later ∧ later ≤ now + (max 0 i.notificationWait + 61 * second +
        14 * times.latency + 11 * times.delay))
      now (i.intercept req) :=
  (intercept_lasts now).concludes

end Lasts

end Lspd.Interceptor
