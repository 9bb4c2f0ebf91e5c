import Lspd.Interceptor.Contract

/-! What an execution of `Intercept` writes to the channel history, and the
actions it asks for. -/

namespace Lspd.Interceptor

open Lspd.Common Lspd.Lightning Lspd.Postgres Lspd.Process
open Lspd.Process.Program (follows_pure follows_ask follows_bind follows_forever)

variable (i : Interceptor)

/-- A channel is written alone, for the own node, and with the time that was
just read. -/
def Stamped (trail : Trail) (updates : List (Option ChannelUpdate)) : Prop :=
  ∃ update before, updates = [some update] ∧ update.nodeID = i.nodeid ∧
    trail = before ++ [⟨.now, update.lastUpdate⟩]

def stamping : Contract Op Reply where
  allowed trail
    | .updateChannels updates => Stamped i trail updates
    | _ => True
  panics _ := True

/-- Results that tell the caller what to do with the htlc. -/
def Decisive (result : InterceptResult) : Prop := result.action ≠ .ignore

variable {i} {req : InterceptRequest} {info : PaymentInfo} {channelPoint : OutPoint}
  {params : OpeningFeeParams} {trail : Trail}

theorem decisive_fail (code : InterceptFailureCode) : Decisive (.failWithCode code) := by
  simp [Decisive]

theorem decisive_resume : Decisive .resume := by simp [Decisive]

theorem pollChannel_stamps {amt : Int64} {deadline : Time} :
    (i.pollChannel req info channelPoint amt deadline ()).Follows (stamping i) trail
      fun _ => Sum.elim (fun _ => True) Decisive := by
  unfold pollChannel
  refine follows_ask trivial fun reply => ?_
  split
  · rename_i chanResult _
    split
    · exact follows_ask trivial fun _ => follows_pure trivial
    · refine follows_ask trivial fun lastUpdate => follows_ask ⟨_, _, rfl, rfl, rfl⟩ fun _ => ?_
      refine follows_ask trivial fun _ => follows_ask trivial fun _ => follows_pure ?_
      exact fun ignored => nomatch ignored
  · refine follows_ask trivial fun now => ?_
    split
    · exact follows_pure (decisive_fail _)
    · exact follows_ask trivial fun _ => follows_pure trivial

theorem forwardHtlc_stamps :
    (i.forwardHtlc req info channelPoint).Follows (stamping i) trail fun _ => Decisive := by
  unfold forwardHtlc
  split
  · trivial
  · refine follows_ask trivial fun now => ?_
    exact follows_forever (fun _ _ => True) trivial fun _ _ _ => pollChannel_stamps

theorem openAndForward_stamps :
    (i.openAndForward req info).Follows (stamping i) trail fun _ => Decisive := by
  have opens : (i.openChannel req.paymentHash info.destination info.incomingAmountMsat
      info.tag).Follows (stamping i) trail fun _ _ => True := by
    unfold openChannel
    refine follows_ask trivial fun _ => follows_ask trivial fun opened => ?_
    cases opened with
    | error message => exact follows_pure trivial
    | ok channelPoint =>
      refine follows_ask trivial fun _ => follows_ask trivial fun written => ?_
      cases written <;> exact follows_pure trivial
  refine follows_bind _ opens fun later outcome _ => ?_
  cases outcome with
  | error message => exact follows_pure (decisive_fail _)
  | ok channelPoint => exact forwardHtlc_stamps

theorem openIfValid_stamps :
    (i.openIfValid req info params).Follows (stamping i) trail fun _ => Decisive := by
  unfold openIfValid
  split
  · exact follows_pure (decisive_fail _)
  split
  · exact follows_pure (decisive_fail _)
  refine follows_ask trivial fun now => ?_
  split
  · refine follows_ask trivial fun cheaper => ?_
    cases cheaper with
    | false => exact follows_pure (decisive_fail _)
    | true => exact openAndForward_stamps
  · exact openAndForward_stamps

theorem interceptRegistered_stamps :
    (i.interceptRegistered req info).Follows (stamping i) trail fun _ => Decisive := by
  unfold interceptRegistered
  split
  · exact forwardHtlc_stamps
  split
  · exact openIfValid_stamps
  · exact follows_ask trivial fun _ => openIfValid_stamps

theorem notifyPeer_stamps {nextHop : Bytes} {isConnected : Bool} :
    (i.notifyPeer req info nextHop isConnected).Follows (stamping i) trail fun _ _ => True := by
  unfold notifyPeer notifyAndWait
  split
  · exact follows_ask trivial fun _ => follows_pure trivial
  refine follows_ask trivial fun notified => ?_
  rcases notified with message | (_ | _)
  · exact follows_pure trivial
  · exact follows_pure trivial
  refine follows_ask trivial fun _ => follows_ask trivial fun online => ?_
  cases online with
  | error message => exact follows_pure trivial
  | ok _ =>
    dsimp only
    split
    · exact follows_pure trivial
    · refine follows_ask trivial fun active => ?_
      cases active <;> exact follows_pure trivial

theorem interceptNextHop_stamps {nextHop : Bytes} :
    (i.interceptNextHop req info nextHop).Follows (stamping i) trail fun _ => Decisive := by
  unfold interceptNextHop
  refine follows_ask trivial fun connected => ?_
  cases connected with
  | error message => exact follows_pure (decisive_fail _)
  | ok isConnected =>
    dsimp only
    split
    · exact follows_pure decisive_resume
    split
    · exact follows_pure (decisive_fail _)
    refine follows_bind _ notifyPeer_stamps fun _ _ _ => ?_
    split
    · exact interceptRegistered_stamps
    · exact follows_pure decisive_resume

/-- Whatever its dependencies answer, an execution of `Intercept` stamps what it
writes to the channel history and comes to a decision. -/
theorem intercept_stamps (req : InterceptRequest) :
    (i.intercept req).Follows (stamping i) [] fun _ => Decisive := by
  unfold intercept
  refine follows_ask trivial fun outcome => ?_
  cases outcome with
  | panic => trivial
  | error message => exact follows_pure (decisive_fail _)
  | value info =>
    refine follows_ask trivial fun reply => ?_
    split
    · split
      · exact follows_pure decisive_resume
      · exact interceptNextHop_stamps
    · split
      · exact interceptNextHop_stamps
      · exact follows_pure decisive_resume

end Lspd.Interceptor
