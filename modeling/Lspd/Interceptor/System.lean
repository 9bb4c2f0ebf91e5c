import Lspd.Interceptor.Contract
import Lspd.Process.Execution

/-! The handler in its surroundings: concurrent `Intercept` calls deduplicated
by payment hash over the databases they share with the registration of payments. -/

namespace Lspd.Interceptor

open Lspd.Common Lspd.Lightning Lspd.Postgres Lspd.Process

structure World where
  payments : Payments
  channels : Channels
  openChannelHtlcs : List OpenChannelHtlcRow

/-- A write that reports success has taken effect; one that reports an error
may have, when the connection was lost after the statement ran. -/
def Writes (world : World) (effect : Option World) (reply : Except String Unit)
    (after : World) : Prop :=
  effect = some after ∨ after = world ∧ reply.isOk = false

def afterSetFundingTx (world : World) (paymentHash : Bytes) (channelPoint : OutPoint) :
    Option World :=
  if fitsOutnum channelPoint then
    some { world with payments := setFundingTx world.payments paymentHash channelPoint }
  else none

def afterUpdateChannels (world : World) (updates : List (Option ChannelUpdate)) : Option World :=
  (updateChannels world.channels updates).map fun channels => { world with channels }

def afterAddOpenChannelHtlc (world : World) (htlc : OpenChannelHtlc) : World :=
  { world with openChannelHtlcs := world.openChannelHtlcs ++ [htlc.row] }

section service

variable (sha256 : Bytes → Bytes) (i : Interceptor)

/-- The possible effects of a call. Whatever does not go to a database may
answer anything at any time: the lightning node, the peers, the fee estimate
and the clock. -/
def Respond (world : World) : (op : Op) → Reply op → World → Prop
  | .paymentInfo hash, reply, after =>
    after = world ∧ PaymentInfoReply sha256 world.payments hash reply
  | .setFundingTx paymentHash channelPoint, reply, after =>
    Writes world (afterSetFundingTx world paymentHash channelPoint) reply after
  | .updateChannels updates, reply, after =>
    Writes world (afterUpdateChannels world updates) reply after
  | .addOpenChannelHtlc htlc, reply, after =>
    Writes world (some (afterAddOpenChannelHtlc world htlc)) reply after
  | _, _, after => after = world

/-- What the rest of the server does to the databases meanwhile, when there is one node:
payments are registered and the channel sync rewrites the channels. -/
inductive Interferes (world : World) : World → Prop where
  | registers (registration : Registration) (payments : Payments)
      (inserted : registerPayment world.payments registration = some payments) :
      Interferes world { world with payments }
  | syncs (channels : Channels) : Interferes world { world with channels }

/-- `Interceptor.Intercept` under `payHashGroup`. -/
def service : Service World InterceptRequest String Op Reply InterceptResult where
  key req := encodeToString req.paymentHash
  body := i.intercept
  respond := Respond sha256
  interfere := Interferes

/-- The databases, and what the interceptors of other nodes have written to the rows of
payments since this node last called `SetFundingTx` for them. -/
structure Shared where
  world : World
  others : List (Bytes × OutPoint)

/-- What is left of the writes of others after a call. -/
def otherWrites (others : List (Bytes × OutPoint)) : Op → List (Bytes × OutPoint)
  | .setFundingTx paymentHash _ => others.filter fun write => write.1 ≠ paymentHash
  | _ => others

/-- What is done to the databases meanwhile, by the rest of the server and by the
interceptors of other nodes. -/
inductive Intrudes (shared : Shared) : Shared → Prop where
  | rest (world : World) (interferes : Interferes shared.world world) :
      Intrudes shared { shared with world }
  | funds (paymentHash : Bytes) (channelPoint : OutPoint) (world : World)
      (effect : afterSetFundingTx shared.world paymentHash channelPoint = some world) :
      Intrudes shared ⟨world, shared.others ++ [(paymentHash, channelPoint)]⟩
  | adds (htlc : OpenChannelHtlc) :
      Intrudes shared { shared with world := afterAddOpenChannelHtlc shared.world htlc }

/-- `Interceptor.Intercept` of one node among others. -/
def sharedService : Service Shared InterceptRequest String Op Reply InterceptResult where
  key req := encodeToString req.paymentHash
  body := i.intercept
  respond shared op reply after :=
    Respond sha256 shared.world op reply after.world ∧ after.others = otherWrites shared.others op
  interfere := Intrudes

end service

abbrev Calls := Group World InterceptRequest Op Reply InterceptResult

abbrev SharedCalls := Group Shared InterceptRequest Op Reply InterceptResult

abbrev Call := Execution InterceptRequest Op Reply

/-- A node alone is one among others that do nothing. -/
theorem covers_service {sha256 : Bytes → Bytes} {i : Interceptor} :
    Service.Covers (Shared.mk · []) (sharedService sha256 i) (service sha256 i) where
  key := rfl
  body := rfl
  respond {_ op _ _} responds := ⟨responds, by cases op <;> rfl⟩
  interfere interferes := .rest _ interferes

/-- Fixed answers of the outside, to run the handler on: databases that work,
peers that are online, and one channel. `fundingError` makes `SetFundingTx` fail. -/
structure Scene where
  now : Time
  channelPoint : OutPoint
  channel : GetChannelResult
  fundingError : Option String

def Scene.write (world : World) (effect : Option World) : Except String Unit × World :=
  match effect with
  | some after => (.ok (), after)
  | none => (.error "refused", world)

def Scene.answer (scene : Scene) (sha256 : Bytes → Bytes) (world : World) :
    (op : Op) → Reply op × World
  | .paymentInfo hash => (paymentInfo sha256 world.payments hash, world)
  | .getPeerId _ => ((none, none), world)
  | .isConnected _ => (.ok true, world)
  | .notify _ _ => (.ok true, world)
  | .goNotify _ _ => ((), world)
  | .waitOnline _ _ => (.ok (), world)
  | .waitChannelActive _ _ => (.ok (), world)
  | .now => (scene.now, world)
  | .isCurrentChainFeeCheaper _ _ => (true, world)
  | .estimateFeeRate => (.ok none, world)
  | .openChannel _ => (.ok scene.channelPoint, world)
  | .sendOpenChannelEmailNotification _ _ _ _ _ _ => ((), world)
  | .setFundingTx paymentHash channelPoint =>
    match scene.fundingError with
    | some message => (.error message, world)
    | none => Scene.write world (afterSetFundingTx world paymentHash channelPoint)
  | .getChannel _ _ => ((some scene.channel, none), world)
  | .updateChannels updates => Scene.write world (afterUpdateChannels world updates)
  | .addOpenChannelHtlc htlc => (.ok (), afterAddOpenChannelHtlc world htlc)
  | .sleep _ => ((), world)

theorem Scene.write_writes (world : World) (effect : Option World) :
    Writes world effect (Scene.write world effect).1 (Scene.write world effect).2 := by
  cases effect with
  | none => exact .inr ⟨rfl, rfl⟩
  | some after => exact .inl rfl

theorem Scene.answer_responds (scene : Scene) (sha256 : Bytes → Bytes) (world : World) (op : Op) :
    Respond sha256 world op (scene.answer sha256 world op).1 (scene.answer sha256 world op).2 := by
  cases op with
  | paymentInfo hash => exact ⟨rfl, paymentInfo_reply sha256 world.payments hash⟩
  | setFundingTx paymentHash channelPoint =>
    cases failing : scene.fundingError with
    | some message =>
      simp only [Scene.answer, failing]
      exact .inr ⟨rfl, rfl⟩
    | none =>
      simp only [Scene.answer, failing]
      exact Scene.write_writes world _
  | updateChannels updates => exact Scene.write_writes world _
  | addOpenChannelHtlc htlc => exact .inl rfl
  | _ => rfl

section sample

/-! One registration and its surroundings, for runs on fixed values. -/

def sampleHash : Bytes := List.replicate 32 1

/-- SHA-256 as far as the sample needs it: of `probing-01:` and `sampleHash`. -/
def sampleSha256 (_ : Bytes) : Bytes :=
  [1, 112, 149, 104, 66, 212, 255, 219, 200, 255, 138, 222, 252, 11, 91, 28,
    238, 114, 228, 90, 151, 15, 218, 15, 122, 199, 15, 170, 76, 75, 138, 182]

def sampleRow : PaymentRow :=
  { paymentHash := sampleHash
    paymentSecret := List.replicate 32 2
    destination := List.replicate 33 3
    incomingAmountMsat := 100000000
    outgoingAmountMsat := 98000000
    fundingTxId := none
    fundingTxOutnum := none
    openingFeeParams := .object ⟨"token",
      { minFeeMsat := 2000000, proportional := 4000, validUntil := "2023-01-01T00:00:00.000Z"
        minLifetime := 4320, maxClientToSelfDelay := 432, promise := "" }⟩
    tag := none }

/-- The sample payment as it is read from its row. -/
def sampleInfo : PaymentInfo :=
  { token := "token"
    params := some
      { minFeeMsat := 2000000, proportional := 4000, validUntil := "2023-01-01T00:00:00.000Z"
        minLifetime := 4320, maxClientToSelfDelay := 432, promise := "" }
    paymentHash := sampleHash
    paymentSecret := some sampleRow.paymentSecret
    destination := sampleRow.destination
    incomingAmountMsat := 100000000
    outgoingAmountMsat := 98000000
    channelPoint := none
    tag := none }

def sampleWorld : World := ⟨⟨[sampleRow], List.pairwise_singleton _ _⟩, .empty, []⟩

def sampleInterceptor : Interceptor where
  nodeid := List.replicate 33 2
  config :=
    { legacyOnionTokens := []
      publicChannelAmount := 1000183
      targetConf := 6
      minConfs := none
      baseFeeMsat := 1000
      routingPpm := 1
      timeLockDelta := 144
      channelFeePermyriad := 40
      channelMinimumFeeMsat := 2000000
      additionalChannelCapacity := 100000
      maxInactiveDuration := 3888000
      notificationTimeout := "1m" }
  time :=
    { parse := fun _ => some (1672531200 * second)
      format := fun _ => "2023-01-01T00:00:00.000Z"
      parseDuration := fun _ => some (60 * second) }

def sampleScene : Scene where
  now := 1672527600 * second
  channelPoint := ⟨⟨List.replicate 32 9, List.length_replicate⟩, 0⟩
  channel := { aliasScid := some 5, confirmedScid := none, htlcMinimumMsat := 1000 }
  fundingError := none

/-- A part of the sample payment. -/
def samplePart (outgoingAmountMsat incomingAmountMsat : UInt64) : InterceptRequest :=
  { identifier := "1", scid := 7, paymentHash := sampleHash, incomingAmountMsat,
    outgoingAmountMsat, incomingExpiry := 1000, outgoingExpiry := 500 }

/-- The run of one part while everything else stands still. -/
def sampleRun (scene : Scene) (world : World) (part : InterceptRequest) :
    Thread World Op Reply InterceptResult :=
  (Thread.mk world [] (sampleInterceptor.intercept part)).drive (scene.answer sampleSha256) 20

/-- What is left of the first part when the channel is opened for it. -/
def sampleCall (part : InterceptRequest) : Call :=
  ⟨part, (sampleRun sampleScene sampleWorld part).history⟩

def sampleResult (amountMsat : UInt64) : InterceptResult :=
  { action := .resumeWithOnion
    destination := sampleRow.destination
    amountMsat
    totalAmountMsat := 98000000
    channelPoint := some sampleScene.channelPoint
    scid := 5
    paymentSecret := some sampleRow.paymentSecret }

theorem sampleRun_finishes :
    (sampleRun sampleScene sampleWorld (samplePart 50000000 51000000)).program =
      .done (sampleResult 49000000) := rfl

/-- Two parts, served one after the other. -/
def sampleParts : Calls :=
  let first := sampleRun sampleScene sampleWorld (samplePart 50000000 51000000)
  let second := sampleRun sampleScene first.world (samplePart 48000000 49000000)
  ⟨second.world, [],
    [⟨samplePart 50000000 51000000, [], first.history, sampleResult 49000000⟩,
      ⟨samplePart 48000000 49000000, [], second.history, sampleResult 47040000⟩]⟩

/-- Parts that are served one after the other lead to a reachable state. -/
theorem sample_serve {initial world : World} (scene : Scene)
    {landings : List (Landing InterceptRequest Op Reply InterceptResult)}
    (reachable : (service sampleSha256 sampleInterceptor).Reachable initial ⟨world, [], landings⟩)
    (leader : InterceptRequest) (followers : List InterceptRequest)
    (same : ∀ follower ∈ followers, leader.paymentHash = follower.paymentHash)
    (result : InterceptResult) (finishes : (sampleRun scene world leader).program = .done result) :
    (service sampleSha256 sampleInterceptor).Reachable initial
      ⟨(sampleRun scene world leader).world, [],
        landings ++ [⟨leader, followers, (sampleRun scene world leader).history, result⟩]⟩ :=
  reachable.serve (scene.answer_responds sampleSha256) leader followers
    (fun follower member => congrArg encodeToString (same follower member)) 20 finishes

theorem sampleParts_reachable :
    (service sampleSha256 sampleInterceptor).Reachable sampleWorld sampleParts :=
  sample_serve sampleScene (sample_serve sampleScene .refl (samplePart 50000000 51000000) []
    (by simp) (sampleResult 49000000) sampleRun_finishes) (samplePart 48000000 49000000) [] (by simp)
    (sampleResult 47040000) rfl

end sample

end Lspd.Interceptor
