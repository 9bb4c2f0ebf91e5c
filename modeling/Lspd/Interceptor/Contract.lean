import Lspd.Interceptor.Trail

/-! What one execution of `Intercept` may do: the guards in front of a channel
opening, the write that must follow it, and what a forwarding result is made
of. Everything is stated over the calls and replies of the execution. -/

namespace Lspd.Interceptor

open Lspd.Common Lspd.Lightning Lspd.Postgres Lspd.Process
open Lspd.Process.Program (follows_pure follows_ask follows_bind follows_forever)

/-- A registered payment was read and the peer behind the requested scid, if
any, is its destination. A probe only gets here when the channel exists. -/
structure Vetted (req : InterceptRequest) (info : PaymentInfo) (trail : Trail) : Prop where
  read : info? trail = some info
  registered : info.paymentSecret.isSome
  peer : ∃ peer err, ⟨.getPeerId req.scid, (peer, err)⟩ ∈ trail ∧
    (peer = none ∨ peer = some info.destination)
  probe : info.channelPoint = none → info.paymentHash = req.paymentHash

theorem Vetted.extend {req : InterceptRequest} {info : PaymentInfo} {trail : Trail}
    (vetted : Vetted req info trail) (more : Trail) : Vetted req info (trail ++ more) := by
  obtain ⟨read, registered, ⟨peer, err, asked, same⟩, probe⟩ := vetted
  exact ⟨info?_append more read, registered,
    ⟨peer, err, List.mem_append_left _ asked, same⟩, probe⟩

variable (i : Interceptor)

/-- The fee parameters in force: the registered ones, or the defaults. -/
def ParamsInForce (info : PaymentInfo) (trail : Trail) (params : OpeningFeeParams) : Prop :=
  info.params = some params ∨
    info.params = none ∧ ∃ now, ⟨.now, now⟩ ∈ trail ∧ params = i.defaultParams now

theorem ParamsInForce.extend {info : PaymentInfo} {trail : Trail} {params : OpeningFeeParams}
    (inForce : ParamsInForce i info trail params) (more : Trail) :
    ParamsInForce i info (trail ++ more) params := by
  rcases inForce with given | ⟨absent, now, asked, same⟩
  · exact .inl given
  · exact .inr ⟨absent, now, List.mem_append_left _ asked, same⟩

/-- The guards that must have been passed before a channel is opened. -/
structure OpenJustified (req : InterceptRequest) (trail : Trail) (request : OpenChannelRequest)
    (info : PaymentInfo) (params : OpeningFeeParams) (validUntil now : Time) : Prop where
  vetted : Vetted req info trail
  unfunded : info.channelPoint = none
  inForce : ParamsInForce i info trail params
  delta : (i.config.timeLockDelta.toNat : Int) ≤ req.incomingExpiry.toNat - req.outgoingExpiry.toNat
  parses : i.time.parse params.validUntil = some validUntil
  clock : (clocks trail).getLast? = some now
  valid : now ≤ validUntil ∨ ⟨.isCurrentChainFeeCheaper info.token params, true⟩ ∈ trail
  request : ∃ fee, request = i.openChannelRequest info.destination info.incomingAmountMsat fee

/-- The channel a result may use: the recorded one, or one this execution
opened to the destination and recorded. -/
def Usable (req : InterceptRequest) (info : PaymentInfo) (channelPoint : OutPoint)
    (trail : Trail) : Prop :=
  info.channelPoint = some channelPoint ∧ opened trail = [] ∨
    info.channelPoint = none ∧ opened trail = [channelPoint] ∧
      fundings trail = [(req.paymentHash, channelPoint, true)] ∧
      ∃ request, ⟨.openChannel request, .ok channelPoint⟩ ∈ trail ∧
        request.destination = info.destination

/-- Where every part of a forwarding result comes from. -/
structure Resumed (req : InterceptRequest) (trail : Trail) (result : InterceptResult)
    (info : PaymentInfo) (channelPoint : OutPoint) (amt : Int64) (scid : ShortChannelID)
    (htlc : OpenChannelHtlc) (stored : Bool) : Prop where
  vetted : Vetted req info trail
  usable : Usable req info channelPoint trail
  amount : forwardAmount info.outgoingAmountMsat req.outgoingAmountMsat
    info.incomingAmountMsat = some amt
  channel : ∃ chanResult err,
    ⟨.getChannel info.destination channelPoint, (some chanResult, err)⟩ ∈ trail ∧
      chanResult.confirmedScid.or chanResult.aliasScid = some scid
  result_eq : result = i.onionResult info channelPoint amt scid
  recorded : records trail = [(htlc, stored)]
  original : htlc.originalAmountMsat = req.outgoingAmountMsat
  incoming : htlc.incomingAmountMsat = req.incomingAmountMsat

def contract (req : InterceptRequest) : Contract Op Reply where
  allowed trail
    | .paymentInfo hash => trail = [] ∧ hash = req.paymentHash
    | .openChannel request => opens trail = [] ∧
        ∃ info params validUntil now, OpenJustified i req trail request info params validUntil now
    | .setFundingTx hash channelPoint => hash = req.paymentHash ∧ fundings trail = [] ∧
        opened trail = [channelPoint]
    | .addOpenChannelHtlc htlc => records trail = [] ∧
        htlc.originalAmountMsat = req.outgoingAmountMsat ∧
        htlc.incomingAmountMsat = req.incomingAmountMsat
    | _ => True
  panics trail := trail = [⟨.paymentInfo req.paymentHash, .panic⟩] ∨
    ∃ info, info? trail = some info ∧ info.incomingAmountMsat = 0

/-- What holds when an execution returns. A channel that was opened has been
written to the store, or that write failed and the htlc is failed. -/
structure Settled (req : InterceptRequest) (trail : Trail) (result : InterceptResult) : Prop where
  funded : ∀ channelPoint ∈ opened trail,
    fundings trail = [(req.paymentHash, channelPoint, true)] ∨
      fundings trail = [(req.paymentHash, channelPoint, false)] ∧
        result = .failWithCode failureTemporaryChannelFailure
  resumed : result.action = .resumeWithOnion → ∃ info channelPoint amt scid htlc stored,
    Resumed i req trail result info channelPoint amt scid htlc stored
  unrecorded : result.action ≠ .resumeWithOnion → records trail = []

theorem Neutral.settled {req : InterceptRequest} {trail : Trail} {result : InterceptResult}
    (neutral : Neutral trail) (other : result.action ≠ .resumeWithOnion) :
    Settled i req trail result where
  funded channelPoint member := by simp [neutral.opened] at member
  resumed onion := absurd onion other
  unrecorded _ := neutral.records

theorem Usable.extend {req : InterceptRequest} {info : PaymentInfo} {channelPoint : OutPoint}
    {trail more : Trail} (usable : Usable req info channelPoint trail) (neutral : Neutral more) :
    Usable req info channelPoint (trail ++ more) := by
  rcases usable with ⟨recorded, none⟩ | ⟨unfunded, one, written, request, asked, same⟩
  · exact .inl ⟨recorded, by simp [none, neutral.opened]⟩
  · exact .inr ⟨unfunded, by simp [one, neutral.opened], by simp [written, neutral.fundings],
      request, List.mem_append_left _ asked, same⟩

theorem Usable.funded {req : InterceptRequest} {info : PaymentInfo} {channelPoint : OutPoint}
    {trail : Trail} (usable : Usable req info channelPoint trail) :
    ∀ other ∈ opened trail, fundings trail = [(req.paymentHash, other, true)] := by
  intro other member
  rcases usable with ⟨_, none⟩ | ⟨_, one, written, _⟩
  · simp [none] at member
  · rw [one, List.mem_singleton] at member
    rw [member, written]

/-- The channel is there to forward over and nothing was recorded yet. -/
structure Ready (req : InterceptRequest) (info : PaymentInfo) (channelPoint : OutPoint)
    (trail : Trail) : Prop where
  vetted : Vetted req info trail
  usable : Usable req info channelPoint trail
  unrecorded : records trail = []

theorem Ready.extend {req : InterceptRequest} {info : PaymentInfo} {channelPoint : OutPoint}
    {trail : Trail} (ready : Ready req info channelPoint trail) (more : Trail)
    (neutral : Neutral more) : Ready req info channelPoint (trail ++ more) :=
  ⟨ready.vetted.extend more, ready.usable.extend neutral,
    by simp [ready.unrecorded, neutral.records]⟩

theorem Ready.settled {req : InterceptRequest} {info : PaymentInfo} {channelPoint : OutPoint}
    {trail : Trail} (ready : Ready req info channelPoint trail) (code : InterceptFailureCode) :
    Settled i req trail (.failWithCode code) where
  funded other member := .inl (ready.usable.funded other member)
  resumed onion := by simp at onion
  unrecorded _ := ready.unrecorded

/-- Recording the htlc completes a forwarding result. -/
theorem Ready.onion {req : InterceptRequest} {info : PaymentInfo} {channelPoint : OutPoint}
    {trail : Trail} {amt : Int64} {scid : ShortChannelID} {htlc : OpenChannelHtlc}
    (ready : Ready req info channelPoint trail)
    (amount : forwardAmount info.outgoingAmountMsat req.outgoingAmountMsat
      info.incomingAmountMsat = some amt) (stored : Except String Unit)
    (channel : ∃ chanResult err,
      ⟨.getChannel info.destination channelPoint, (some chanResult, err)⟩ ∈ trail ∧
        chanResult.confirmedScid.or chanResult.aliasScid = some scid)
    (original : htlc.originalAmountMsat = req.outgoingAmountMsat)
    (incoming : htlc.incomingAmountMsat = req.incomingAmountMsat) :
    Settled i req (trail ++ [⟨.addOpenChannelHtlc htlc, stored⟩])
      (i.onionResult info channelPoint amt scid) where
  funded other member := by
    have old : other ∈ opened trail := by simpa [opened?] using member
    left
    simpa [funding?] using ready.usable.funded other old
  resumed _ := by
    obtain ⟨chanResult, err, asked, chosen⟩ := channel
    refine ⟨info, channelPoint, amt, scid, htlc, stored.isOk, ready.vetted.extend _, ?_, amount,
      ⟨chanResult, err, List.mem_append_left _ asked, chosen⟩, rfl, ?_, original, incoming⟩
    · rcases ready.usable with ⟨recorded, none⟩ | ⟨unfunded, one, written, request, opening, same⟩
      · exact .inl ⟨recorded, by simp [none, opened?]⟩
      · exact .inr ⟨unfunded, by simp [one, opened?], by simp [written, funding?], request,
          List.mem_append_left _ opening, same⟩
    · simp [ready.unrecorded, record?]
  unrecorded other := absurd rfl other

theorem pollChannel_follows {req : InterceptRequest} {info : PaymentInfo}
    {channelPoint : OutPoint} {amt : Int64} {deadline : Time} {trail : Trail}
    (ready : Ready req info channelPoint trail)
    (amount : forwardAmount info.outgoingAmountMsat req.outgoingAmountMsat
      info.incomingAmountMsat = some amt) :
    (i.pollChannel req info channelPoint amt deadline ()).Follows (contract i req) trail
      fun later => Sum.elim (fun _ => Ready req info channelPoint later)
        (fun result => Settled i req later result) := by
  unfold pollChannel
  refine follows_ask trivial fun reply => ?_
  obtain ⟨found, err⟩ := reply
  cases found with
  | none =>
    refine follows_ask trivial fun now => ?_
    have waited := ready.extend
      [⟨.getChannel info.destination channelPoint, (none, err)⟩, ⟨.now, now⟩] ⟨rfl, rfl, rfl, rfl⟩
    rw [List.append_assoc]
    split
    · exact follows_pure (waited.settled i _)
    · exact follows_ask trivial fun _ => follows_pure (waited.extend _ ⟨rfl, rfl, rfl, rfl⟩)
  | some chanResult =>
    have found := ready.extend
      [⟨.getChannel info.destination channelPoint, (some chanResult, err)⟩] ⟨rfl, rfl, rfl, rfl⟩
    dsimp only
    split
    · exact follows_ask trivial fun _ => follows_pure (found.extend _ ⟨rfl, rfl, rfl, rfl⟩)
    · rename_i scid chosen
      refine follows_ask trivial fun lastUpdate => follows_ask trivial fun updated =>
        follows_ask trivial fun forwardTime => ?_
      have polled := ((found.extend [⟨.now, lastUpdate⟩] ⟨rfl, rfl, rfl, rfl⟩).extend
        [⟨.updateChannels _, updated⟩] ⟨rfl, rfl, rfl, rfl⟩).extend
        [⟨.now, forwardTime⟩] ⟨rfl, rfl, rfl, rfl⟩
      refine follows_ask ⟨polled.unrecorded, rfl, rfl⟩ fun stored => follows_pure ?_
      exact polled.onion i amount stored ⟨chanResult, err, by simp, chosen⟩ rfl rfl

theorem forwardHtlc_follows {req : InterceptRequest} {info : PaymentInfo}
    {channelPoint : OutPoint} {trail : Trail} (ready : Ready req info channelPoint trail) :
    (i.forwardHtlc req info channelPoint).Follows (contract i req) trail (Settled i req) := by
  unfold forwardHtlc
  split
  · rename_i undefined
    refine .inr ⟨info, ready.vetted.read, ?_⟩
    simpa [forwardAmount] using undefined
  · rename_i amt amount
    refine follows_ask trivial fun now => ?_
    exact follows_forever (fun _ => Ready req info channelPoint)
      (ready.extend _ ⟨rfl, rfl, rfl, rfl⟩)
      (fun _ _ waiting => pollChannel_follows i waiting amount)

/-- A successful opening is written down before anything else is asked of the
store; only a failed write gives the channel up. -/
theorem openChannel_follows {req : InterceptRequest} {info : PaymentInfo}
    {params : OpeningFeeParams} {validUntil now : Time} {trail : Trail} (neutral : Neutral trail)
    (justified : ∀ fee estimate, OpenJustified i req (trail ++ [⟨.estimateFeeRate, estimate⟩])
      (i.openChannelRequest info.destination info.incomingAmountMsat fee) info params validUntil now) :
    (i.openChannel req.paymentHash info.destination info.incomingAmountMsat info.tag).Follows
      (contract i req) trail fun later outcome =>
        match outcome with
        | .error _ => Settled i req later (.failWithCode failureTemporaryChannelFailure)
        | .ok channelPoint => Ready req info channelPoint later := by
  unfold openChannel
  refine follows_ask trivial fun estimate => ?_
  refine follows_ask ⟨by simp [neutral.opens, opens?], info, params, validUntil, now,
    justified _ _⟩ fun reply => ?_
  cases reply with
  | error message =>
    refine follows_pure ⟨?_, by simp, fun _ => ?_⟩
    · simp [neutral.opened, opened?]
    · simp [neutral.records, record?]
  | ok channelPoint =>
    refine follows_ask trivial fun _ => follows_ask ⟨rfl, ?_, ?_⟩ fun written => ?_
    · simp [neutral.fundings, funding?]
    · simp [neutral.opened, opened?]
    · cases written with
      | error message =>
        refine follows_pure ⟨fun other member => .inr ⟨?_, rfl⟩, by simp, fun _ => ?_⟩
        · have same : other = channelPoint := by simpa [neutral.opened, opened?] using member
          simp [neutral.fundings, funding?, same, Except.isOk, Except.toBool]
        · simp [neutral.records, record?]
      | ok _ =>
        have reached := justified (i.feeOrTarget estimate) estimate
        refine follows_pure ⟨?_, .inr ⟨reached.unfunded, ?_, ?_,
          i.openChannelRequest info.destination info.incomingAmountMsat (i.feeOrTarget estimate),
          ?_, rfl⟩, ?_⟩
        · simpa only [List.append_assoc] using reached.vetted.extend _
        · simp [neutral.opened, opened?]
        · simp [neutral.fundings, funding?, Except.isOk, Except.toBool]
        · simp
        · simp [neutral.records, record?]

theorem openAndForward_follows {req : InterceptRequest} {info : PaymentInfo}
    (params : OpeningFeeParams) (validUntil now : Time) {trail : Trail} (neutral : Neutral trail)
    (justified : ∀ fee estimate, OpenJustified i req (trail ++ [⟨.estimateFeeRate, estimate⟩])
      (i.openChannelRequest info.destination info.incomingAmountMsat fee) info params validUntil now) :
    (i.openAndForward req info).Follows (contract i req) trail (Settled i req) := by
  refine follows_bind _ (openChannel_follows i neutral justified) fun later outcome reached => ?_
  cases outcome with
  | error message => exact follows_pure reached
  | ok channelPoint => exact forwardHtlc_follows i reached

theorem openIfValid_follows {req : InterceptRequest} {info : PaymentInfo}
    {params : OpeningFeeParams} {trail : Trail} (neutral : Neutral trail)
    (vetted : Vetted req info trail) (unfunded : info.channelPoint = none)
    (inForce : ParamsInForce i info trail params) :
    (i.openIfValid req info params).Follows (contract i req) trail (Settled i req) := by
  unfold openIfValid
  split
  · exact follows_pure (neutral.settled i (by simp))
  rename_i delta
  split
  · exact follows_pure (neutral.settled i (by simp))
  rename_i validUntil parses
  refine follows_ask trivial fun now => ?_
  have justified (fee : FeeEstimation) (more : Trail) (silent : clocks more = [])
      (valid : now ≤ validUntil ∨ ⟨.isCurrentChainFeeCheaper info.token params, true⟩ ∈ more) :
      OpenJustified i req (trail ++ [⟨.now, now⟩] ++ more)
        (i.openChannelRequest info.destination info.incomingAmountMsat fee) info params
        validUntil now :=
    { vetted := (vetted.extend _).extend _
      unfunded
      inForce := (inForce.extend i _).extend i _
      delta := by omega
      parses
      clock := by simp [silent, clock?]
      valid := valid.imp_right fun asked => by simp [asked]
      request := ⟨fee, rfl⟩ }
  split
  · rename_i late
    refine follows_ask trivial fun cheaper => ?_
    have asked := (neutral.extend [⟨.now, now⟩] ⟨rfl, rfl, rfl, rfl⟩).extend
      [⟨.isCurrentChainFeeCheaper info.token params, cheaper⟩] ⟨rfl, rfl, rfl, rfl⟩
    cases cheaper with
    | false => exact follows_pure (asked.settled i (by simp))
    | true =>
      refine openAndForward_follows i params validUntil now asked fun fee estimate => ?_
      rw [List.append_assoc]
      exact justified fee _ rfl (.inr (by simp))
  · rename_i intime
    refine openAndForward_follows i params validUntil now
      (neutral.extend _ ⟨rfl, rfl, rfl, rfl⟩) fun fee estimate => ?_
    exact justified fee _ rfl (.inl (Int.not_lt.mp intime))

theorem interceptRegistered_follows {req : InterceptRequest} {info : PaymentInfo} {trail : Trail}
    (neutral : Neutral trail) (vetted : Vetted req info trail) :
    (i.interceptRegistered req info).Follows (contract i req) trail (Settled i req) := by
  unfold interceptRegistered
  split
  · rename_i channelPoint recorded
    exact forwardHtlc_follows i ⟨vetted, .inl ⟨recorded, neutral.opened⟩, neutral.records⟩
  · rename_i unfunded
    split
    · rename_i params given
      exact openIfValid_follows i neutral vetted unfunded (.inl given)
    · rename_i absent
      refine follows_ask trivial fun now => ?_
      exact openIfValid_follows i (neutral.extend _ ⟨rfl, rfl, rfl, rfl⟩) (vetted.extend _) unfunded
        (.inr ⟨absent, now, by simp, rfl⟩)

theorem notifyAndWait_follows {req : InterceptRequest} {paymentHash nextHop : Bytes}
    {isRegistered : Bool} {trail : Trail} :
    (i.notifyAndWait paymentHash nextHop isRegistered).Follows (contract i req) trail
      fun later _ => ∃ more, later = trail ++ more ∧ Neutral more := by
  have done (more : Trail) (neutral : Neutral more) (result : Option InterceptResult) :
      (pure result : Code (Option InterceptResult)).Follows (contract i req) (trail ++ more)
        fun later _ => ∃ more, later = trail ++ more ∧ Neutral more :=
    follows_pure ⟨more, rfl, neutral⟩
  unfold notifyAndWait
  refine follows_ask trivial fun notified => ?_
  rcases notified with message | (_ | _)
  · exact done _ ⟨rfl, rfl, rfl, rfl⟩ _
  · exact done _ ⟨rfl, rfl, rfl, rfl⟩ _
  refine follows_ask trivial fun now => follows_ask trivial fun online => ?_
  simp only [List.append_assoc]
  cases online with
  | error message => exact done _ ⟨rfl, rfl, rfl, rfl⟩ _
  | ok _ =>
    dsimp only
    split
    · exact done _ ⟨rfl, rfl, rfl, rfl⟩ _
    · refine follows_ask trivial fun active => ?_
      simp only [List.append_assoc]
      cases active <;> exact done _ ⟨rfl, rfl, rfl, rfl⟩ _

theorem notifyPeer_follows {req : InterceptRequest} {info : PaymentInfo} {nextHop : Bytes}
    {isConnected : Bool} {trail : Trail} :
    (i.notifyPeer req info nextHop isConnected).Follows (contract i req) trail
      fun later _ => ∃ more, later = trail ++ more ∧ Neutral more := by
  unfold notifyPeer
  split
  · exact follows_ask trivial fun _ => follows_pure ⟨_, rfl, rfl, rfl, rfl, rfl⟩
  · exact notifyAndWait_follows i

theorem interceptNextHop_follows {req : InterceptRequest} {info : PaymentInfo} {nextHop : Bytes}
    {trail : Trail} (neutral : Neutral trail) (read : info? trail = some info)
    (peer : ∃ peer err, ⟨.getPeerId req.scid, (peer, err)⟩ ∈ trail ∧
      (info.paymentSecret.isSome → peer = none ∨ peer = some info.destination)) :
    (i.interceptNextHop req info nextHop).Follows (contract i req) trail (Settled i req) := by
  unfold interceptNextHop
  refine follows_ask trivial fun connected => ?_
  have asked := neutral.extend [⟨.isConnected nextHop, connected⟩] ⟨rfl, rfl, rfl, rfl⟩
  cases connected with
  | error message => exact follows_pure (asked.settled i (by simp))
  | ok isConnected =>
    dsimp only
    split
    · exact follows_pure (asked.settled i (by simp))
    split
    · exact follows_pure (asked.settled i (by simp))
    rename_i real
    refine follows_bind _ (notifyPeer_follows i) fun later _ reached => ?_
    obtain ⟨more, rfl, quiet⟩ := reached
    split
    · rename_i registered
      obtain ⟨peer, err, reply, same⟩ := peer
      refine interceptRegistered_follows i (asked.extend more quiet) ⟨?_, registered, ?_, ?_⟩
      · exact info?_append _ (info?_append _ read)
      · exact ⟨peer, err, by simp [reply], same registered⟩
      · intro unfunded
        simpa [isProbe, registered, unfunded] using real
    · exact follows_pure ((asked.extend more quiet).settled i (by simp))

/-- Whatever its dependencies answer, an execution of `Intercept` keeps the
contract of its request and returns a settled result. -/
theorem intercept_follows (req : InterceptRequest) :
    (i.intercept req).Follows (contract i req) [] (Settled i req) := by
  unfold intercept
  refine follows_ask ⟨rfl, rfl⟩ fun outcome => ?_
  cases outcome with
  | panic => exact .inl rfl
  | error message => exact follows_pure (Neutral.settled i ⟨rfl, rfl, rfl, rfl⟩ (by simp))
  | value info =>
    refine follows_ask trivial fun reply => ?_
    obtain ⟨peer, err⟩ := reply
    have neutral : Neutral [⟨.paymentInfo req.paymentHash, .value info⟩,
      ⟨.getPeerId req.scid, (peer, err)⟩] := ⟨rfl, rfl, rfl, rfl⟩
    cases peer with
    | none =>
      dsimp only
      split
      · exact interceptNextHop_follows i neutral rfl ⟨none, err, by simp, fun _ => .inl rfl⟩
      · exact follows_pure (neutral.settled i (by simp))
    | some nextHop =>
      dsimp only
      split
      · exact follows_pure (neutral.settled i (by simp))
      · rename_i same
        refine interceptNextHop_follows i neutral rfl ⟨some nextHop, err, by simp, ?_⟩
        intro registered
        exact .inr (by simpa [registered] using same)

section runs

variable {i} {req : InterceptRequest} {trail : Trail} {later : Code InterceptResult}

theorem obeyed_of_runs (runs : (i.intercept req).Runs trail later) :
    (contract i req).Obeyed trail :=
  (Program.Follows.runs runs (intercept_follows i req) (Contract.obeyed_nil _)).1

theorem settled_of_runs {result : InterceptResult}
    (runs : (i.intercept req).Runs trail (.done result)) : Settled i req trail result :=
  (Program.Follows.runs runs (intercept_follows i req) (Contract.obeyed_nil _)).2

/-- The guards had been passed by the calls before an opening. -/
theorem justified_of_runs {request : OpenChannelRequest} {reply : Except String OutPoint}
    (runs : (i.intercept req).Runs trail later) (asked : ⟨.openChannel request, reply⟩ ∈ trail) :
    ∃ earlier more info params validUntil now,
      trail = earlier ++ ⟨.openChannel request, reply⟩ :: more ∧
        OpenJustified i req earlier request info params validUntil now := by
  obtain ⟨earlier, more, split⟩ := List.append_of_mem asked
  obtain ⟨_, info, params, validUntil, now, justified⟩ :=
    obeyed_of_runs runs earlier ⟨.openChannel request, reply⟩ more split
  exact ⟨earlier, more, info, params, validUntil, now, split, justified⟩

end runs

end Lspd.Interceptor
