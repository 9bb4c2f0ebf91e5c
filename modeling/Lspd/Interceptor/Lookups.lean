import Lspd.Interceptor.System

/-! The three lookups at the start of `Intercept` and what an execution still
does when one of them fails. -/

namespace Lspd.Interceptor

open Lspd.Common Lspd.Lightning Lspd.Postgres Lspd.Process
open Lspd.Process.Program (of_runs_ask of_runs_pure runs_ask)

/-- What the lookups answer. -/
structure Lookups where
  payment : Outcome PaymentInfo
  peer : Option Bytes × Option String
  connected : Except String Bool

/-- A lookup got this answer, if the event is one. -/
def Lookups.Gives (lookups : Lookups) : Event Op Reply → Prop
  | ⟨.paymentInfo _, reply⟩ => reply = lookups.payment
  | ⟨.getPeerId _, reply⟩ => reply = lookups.peer
  | ⟨.isConnected _, reply⟩ => reply = lookups.connected
  | _ => True

/-- A lookup that reports an error. -/
def Fails : Event Op Reply → Prop
  | ⟨.paymentInfo _, .error _⟩ => True
  | ⟨.getPeerId _, (_, some _)⟩ => True
  | ⟨.isConnected _, .error _⟩ => True
  | _ => False

/-- Calls that open a channel, write to a store or send a notification. -/
def Acts : Op → Prop
  | .openChannel _ | .setFundingTx _ _ | .updateChannels _ | .addOpenChannelHtlc _ => True
  | .notify _ _ | .goNotify _ _ | .sendOpenChannelEmailNotification _ _ _ _ _ _ => True
  | _ => False

/-- Nothing was done, and if the call is over the htlc is resumed or failed. -/
structure Quiet (trail : Trail) (later : Code InterceptResult) : Prop where
  still : ∀ event ∈ trail, ¬ Acts event.1
  returns : later ≠ .panic
  result : ∀ result, later = .done result →
    result.action = .resume ∨ result.action = .failHtlcWithCode

/-- The next hop that `Intercept` goes on with. -/
def nextHop (info : PaymentInfo) : Option Bytes → Option Bytes
  | some peer =>
    if info.paymentSecret.isSome ∧ peer ≠ info.destination then none else some peer
  | none => if info.paymentSecret.isSome then some info.destination else none

/-- The lookups let the call pass: the payment is known, there is a next hop whose
connection is known, and the htlc is not a probe that is answered at once. -/
def Lookups.Pass (lookups : Lookups) (req : InterceptRequest) : Prop :=
  ∃ info hop isConnected, lookups.payment = .value info ∧
    nextHop info lookups.peer.1 = some hop ∧ lookups.connected = .ok isConnected ∧
    (isProbe info req → isConnected ∧ info.channelPoint ≠ none)

variable {i : Interceptor} {req : InterceptRequest} {lookups : Lookups} {trail : Trail}
  {later : Code InterceptResult} {info : PaymentInfo}

/-- What follows the lookup of the peer. -/
def interceptPeer (i : Interceptor) (req : InterceptRequest) (info : PaymentInfo)
    (peer : Option Bytes) : Code InterceptResult :=
  match nextHop info peer with
  | none => pure .resume
  | some hop => i.interceptNextHop req info hop

theorem intercept_eq (i : Interceptor) (req : InterceptRequest) :
    i.intercept req = ask (.paymentInfo req.paymentHash) >>= fun outcome =>
      match outcome with
      | .panic => .panic
      | .error _ => pure (.failWithCode failureTemporaryNodeFailure)
      | .value info => ask (.getPeerId req.scid) >>= fun reply => i.interceptPeer req info reply.1 := by
  unfold intercept
  congr 1
  funext outcome
  cases outcome with
  | panic => rfl
  | error message => rfl
  | value info =>
    dsimp only
    congr 1
    funext reply
    unfold interceptPeer nextHop
    cases reply.1 with
    | none =>
      dsimp only
      split <;> rfl
    | some peer =>
      dsimp only
      split <;> rfl

section quiet

theorem quiet_done {result : InterceptResult} (still : ∀ event ∈ trail, ¬ Acts event.1)
    (action : result.action = .resume ∨ result.action = .failHtlcWithCode) :
    Quiet trail (pure result) where
  still := still
  returns same := by cases same
  result other same := by
    cases same
    exact action

theorem quiet_asking {op : Op} {rest : Reply op → Code InterceptResult}
    (still : ∀ event ∈ trail, ¬ Acts event.1) : Quiet trail (ask op >>= rest) where
  still := still
  returns same := by cases same
  result other same := by cases same

/-- Calls before a quiet ending that do nothing themselves. -/
theorem Quiet.cons {event : Event Op Reply} (quiet : Quiet trail later) (still : ¬ Acts event.1) :
    Quiet (event :: trail) later where
  still := List.forall_mem_cons.mpr ⟨still, quiet.still⟩
  returns := quiet.returns
  result := quiet.result

/-- From the question for the connection on, a call that does not pass is quiet. -/
theorem interceptNextHop_quiet {hop : Bytes}
    (runs : (i.interceptNextHop req info hop).Runs trail later)
    (answers : ∀ event ∈ trail, lookups.Gives event)
    (stops : ∀ isConnected, lookups.connected = .ok isConnected →
      isProbe info req ∧ (isConnected = false ∨ info.channelPoint = none)) :
    Quiet trail later := by
  unfold interceptNextHop at runs
  rcases of_runs_ask runs with ⟨rfl, rfl⟩ | ⟨connected, rest, rfl, continues⟩
  · exact quiet_asking (by simp)
  refine Quiet.cons ?_ id
  cases connected with
  | error message =>
    obtain ⟨rfl, rfl⟩ := of_runs_pure continues
    exact quiet_done (by simp) (by simp)
  | ok isConnected =>
    have answered : Except.ok isConnected = lookups.connected := answers _ List.mem_cons_self
    obtain ⟨probe, early⟩ := stops isConnected answered.symm
    dsimp only at continues
    rcases early with rfl | unfunded
    · rw [if_pos ⟨probe, by simp⟩] at continues
      obtain ⟨rfl, rfl⟩ := of_runs_pure continues
      exact quiet_done (by simp) (by simp)
    · split at continues
      · obtain ⟨rfl, rfl⟩ := of_runs_pure continues
        exact quiet_done (by simp) (by simp)
      · rw [if_pos ⟨probe, unfunded⟩] at continues
        obtain ⟨rfl, rfl⟩ := of_runs_pure continues
        exact quiet_done (by simp) (by simp)

/-- A call that does not pass is quiet as soon as a lookup has failed. -/
theorem intercept_quiet (runs : (i.intercept req).Runs trail later)
    (answers : ∀ event ∈ trail, lookups.Gives event) (failed : ∃ event ∈ trail, Fails event)
    (stops : ¬ lookups.Pass req) : Quiet trail later := by
  rw [intercept_eq] at runs
  rcases of_runs_ask runs with ⟨rfl, rfl⟩ | ⟨outcome, rest, rfl, looked⟩
  · obtain ⟨event, member, _⟩ := failed
    cases member
  have answered : outcome = lookups.payment := answers _ List.mem_cons_self
  refine Quiet.cons ?_ id
  cases outcome with
  | panic =>
    cases looked
    obtain ⟨event, member, fails⟩ := failed
    obtain rfl := List.mem_singleton.mp member
    cases fails
  | error message =>
    obtain ⟨rfl, rfl⟩ := of_runs_pure looked
    exact quiet_done (by simp) (by simp)
  | value info =>
    rcases of_runs_ask looked with ⟨rfl, rfl⟩ | ⟨peer, rest, rfl, continues⟩
    · exact quiet_asking (by simp)
    refine Quiet.cons ?_ id
    have asked : peer = lookups.peer := answers _ (List.mem_cons_of_mem _ List.mem_cons_self)
    unfold interceptPeer at continues
    split at continues
    · obtain ⟨rfl, rfl⟩ := of_runs_pure continues
      exact quiet_done (by simp) (by simp)
    · rename_i hop known
      refine interceptNextHop_quiet continues (fun event member => answers event (by simp [member])) ?_
      intro isConnected connected
      by_contra goes
      refine stops ⟨info, hop, isConnected, answered.symm, asked ▸ known, connected, ?_⟩
      intro probe
      cases isConnected <;> simp_all

end quiet

/-- An htlc that is no probe to be answered at once gets past the connection. -/
theorem interceptNextHop_passes {hop : Bytes} {isConnected : Bool}
    (real : isProbe info req → isConnected ∧ info.channelPoint ≠ none)
    (runs : (i.notifyPeer req info hop isConnected >>= fun _ =>
      if info.paymentSecret.isSome then i.interceptRegistered req info
      else pure .resume).Runs trail later) :
    (i.interceptNextHop req info hop).Runs (⟨.isConnected hop, .ok isConnected⟩ :: trail) later := by
  refine runs_ask _ ?_
  dsimp only
  rw [if_neg (fun probe => probe.2 (real probe.1).1), if_neg (fun probe => (real probe.1).2 probe.2)]
  exact runs

/-- The peer is notified, connected or not. -/
theorem notifyPeer_acts {hop : Bytes} (lookups : Lookups) (isConnected : Bool)
    (rest : Option InterceptResult → Code InterceptResult) :
    ∃ event later, Acts event.1 ∧ lookups.Gives event ∧
      (i.notifyPeer req info hop isConnected >>= rest).Runs [event] later := by
  cases isConnected with
  | true => exact ⟨_, _, by exact trivial, by exact trivial, .call () .here⟩
  | false => exact ⟨_, _, by exact trivial, by exact trivial, .call (.ok false) .here⟩

/-- A call whose lookups let it pass gets to notify the peer. -/
theorem exists_acting_run (i : Interceptor) (passes : lookups.Pass req) :
    ∃ trail later, (i.intercept req).Runs trail later ∧ (∀ event ∈ trail, lookups.Gives event) ∧
      ⟨.getPeerId req.scid, lookups.peer⟩ ∈ trail ∧ ∃ event ∈ trail, Acts event.1 := by
  obtain ⟨info, hop, isConnected, payment, known, connected, real⟩ := passes
  obtain ⟨event, later, acts, gives, runs⟩ := notifyPeer_acts lookups isConnected _
  refine ⟨[⟨.paymentInfo req.paymentHash, .value info⟩, ⟨.getPeerId req.scid, lookups.peer⟩,
    ⟨.isConnected hop, .ok isConnected⟩, event], later, ?_, ?_, by simp, event, by simp, acts⟩
  · rw [intercept_eq]
    refine runs_ask _ (runs_ask _ ?_)
    rw [interceptPeer, known]
    exact interceptNextHop_passes real runs
  · simp only [List.forall_mem_cons]
    exact ⟨payment.symm, rfl, connected.symm, gives, by simp⟩

/-- Lookups that let a call pass report no error but that of the peer. -/
theorem not_fails_of_pass {event : Event Op Reply} (passes : lookups.Pass req)
    (clean : lookups.peer.2 = none) (gives : lookups.Gives event) : ¬ Fails event := by
  obtain ⟨info, hop, isConnected, payment, _, connected, _⟩ := passes
  obtain ⟨op, reply⟩ := event
  cases op with
  | paymentInfo hash =>
    obtain rfl : reply = .value info := payment ▸ gives
    exact id
  | getPeerId scid =>
    obtain ⟨peer, err⟩ := reply
    obtain rfl : err = none := by rw [← clean, ← show (peer, err) = lookups.peer from gives]
    exact id
  | isConnected destination =>
    obtain rfl : reply = .ok isConnected := connected ▸ gives
    exact id
  | _ => exact id

/-- A failed lookup keeps a call from acting exactly when it was not the lookup of
the peer, whose error is dropped, or when the call stops anyway. -/
theorem failed_lookup_quiet_iff (i : Interceptor) (req : InterceptRequest) (lookups : Lookups) :
    (∀ trail later, (i.intercept req).Runs trail later →
      (∀ event ∈ trail, lookups.Gives event) → (∃ event ∈ trail, Fails event) →
        Quiet trail later) ↔
      lookups.peer.2 = none ∨ ¬ lookups.Pass req := by
  constructor
  · intro quiet
    by_contra passes
    obtain ⟨dropped, passes⟩ := not_or.mp passes
    obtain ⟨trail, later, runs, answers, asked, event, member, acts⟩ :=
      exists_acting_run i (not_not.mp passes)
    have failed : Fails ⟨.getPeerId req.scid, lookups.peer⟩ := by
      obtain ⟨message, reported⟩ := Option.ne_none_iff_exists'.mp dropped
      rw [show lookups.peer = (lookups.peer.1, some message) from Prod.ext rfl reported]
      trivial
    exact (quiet trail later runs answers ⟨_, asked, failed⟩).still event member acts
  · intro sound trail later runs answers failed
    by_cases passes : lookups.Pass req
    · obtain ⟨event, member, fails⟩ := failed
      exact absurd fails (not_fails_of_pass passes (sound.resolve_right (not_not.mpr passes))
        (answers event member))
    · exact intercept_quiet runs answers failed passes

section sample

/-- The sample surroundings while the node cannot look up the peer of a channel. -/
def peerlessAnswer (world : World) : (op : Op) → Reply op × World
  | .getPeerId _ => ((none, some "rpc error: code = Unavailable"), world)
  | op => sampleScene.answer sampleSha256 world op

/-- The error is dropped: a channel is opened and recorded for the payment. -/
theorem failed_lookup_opens : ∃ trail result,
    (sampleInterceptor.intercept (samplePart 50000000 51000000)).Runs trail (.done result) ∧
      (∃ event ∈ trail, Fails event) ∧ opened trail = [sampleScene.channelPoint] ∧
      fundings trail = [(sampleHash, sampleScene.channelPoint, true)] ∧
      result.action = .resumeWithOnion := by
  obtain ⟨trail, same, runs⟩ := Thread.drive_runs peerlessAnswer 20
    ⟨sampleWorld, [], sampleInterceptor.intercept (samplePart 50000000 51000000)⟩
  obtain rfl := same
  have failed : ⟨.getPeerId 7, (none, some "rpc error: code = Unavailable")⟩ ∈
      (Thread.drive peerlessAnswer 20 ⟨sampleWorld, [],
        sampleInterceptor.intercept (samplePart 50000000 51000000)⟩).history :=
    List.mem_of_getElem? (i := 1) rfl
  exact ⟨_, sampleResult 49000000, runs, ⟨_, failed, trivial⟩, rfl, rfl, rfl⟩

end sample

end Lspd.Interceptor
