import Lspd.Process.Program
import Lspd.Postgres.History
import Lspd.Postgres.Payments

/-! `Interceptor.Intercept` as a program over the calls it makes to the stores,
the lightning client, the notification service and the clock. -/

namespace Lspd

open Lspd.Common Lspd.Lightning Lspd.Postgres Lspd.Process
open Lspd.Process.Program (forever)

structure Interceptor where
  nodeid : Bytes
  config : NodeConfig
  time : TimeTexts

namespace Interceptor

structure FeeEstimation where
  satPerVByte : Option Float
  targetConf : Option UInt32

structure RoutingPolicy where
  ppm : UInt32
  baseMsat : UInt64

structure OpenChannelRequest where
  destination : Bytes
  capacitySat : UInt64
  minConfs : Option UInt32
  feeSatPerVByte : Option Float
  targetConf : Option UInt32
  routingPolicy : RoutingPolicy

structure GetChannelResult where
  aliasScid : Option ShortChannelID
  confirmedScid : Option ShortChannelID
  htlcMinimumMsat : UInt64

/-- The calls `Intercept` makes. `goNotify` runs in a goroutine of its own;
`sleep` is `<-time.After`. -/
inductive Op where
  | paymentInfo (htlcPaymentHash : Bytes)
  | getPeerId (scid : ShortChannelID)
  | isConnected (destination : Bytes)
  | notify (pubkey paymentHash : String)
  | goNotify (pubkey paymentHash : String)
  | waitOnline (peerID : Bytes) (deadline : Time)
  | waitChannelActive (peerID : Bytes) (deadline : Time)
  | now
  | isCurrentChainFeeCheaper (token : String) (params : OpeningFeeParams)
  | estimateFeeRate
  | openChannel (request : OpenChannelRequest)
  | sendOpenChannelEmailNotification (paymentHash : Bytes) (incomingAmountMsat : Int64)
      (destination : Bytes) (capacity : Int64) (channelPoint : OutPoint) (tag : Option String)
  | setFundingTx (paymentHash : Bytes) (channelPoint : OutPoint)
  | getChannel (peerID : Bytes) (channelPoint : OutPoint)
  | updateChannels (updates : List (Option ChannelUpdate))
  | addOpenChannelHtlc (htlc : OpenChannelHtlc)
  | sleep (duration : Time)

/-- Two results that are returned side by side stay a pair: the code looks at
the peer and at the channel without their error. -/
abbrev Reply : Op → Type
  | .paymentInfo _ => Outcome PaymentInfo
  | .getPeerId _ => Option Bytes × Option String
  | .isConnected _ => Except String Bool
  | .notify _ _ => Except String Bool
  | .goNotify _ _ => Unit
  | .waitOnline _ _ => Except String Unit
  | .waitChannelActive _ _ => Except String Unit
  | .now => Time
  | .isCurrentChainFeeCheaper _ _ => Bool
  | .estimateFeeRate => Except String (Option FeeEstimation)
  | .openChannel _ => Except String OutPoint
  | .sendOpenChannelEmailNotification _ _ _ _ _ _ => Unit
  | .setFundingTx _ _ => Except String Unit
  | .getChannel _ _ => Option GetChannelResult × Option String
  | .updateChannels _ => Except String Unit
  | .addOpenChannelHtlc _ => Except String Unit
  | .sleep _ => Unit

abbrev Code (α : Type) := Program Op Reply α

abbrev ask (op : Op) : Code (Reply op) := Program.ask op

variable (i : Interceptor)

/-- A registered payment that was found under another hash is a probe. -/
def isProbe (info : PaymentInfo) (req : InterceptRequest) : Bool :=
  info.paymentSecret.isSome && info.paymentHash != req.paymentHash

def notifyAndWait (paymentHash nextHop : Bytes) (isRegistered : Bool) :
    Code (Option InterceptResult) := do
  match ← ask (.notify (encodeToString nextHop) (encodeToString paymentHash)) with
  | .error _ => return some .resume
  | .ok false => return some .resume
  | .ok true =>
    let wait := (i.time.parseDuration i.config.notificationTimeout).getD (60 * second)
    let now ← ask .now
    match ← ask (.waitOnline nextHop (now + wait)) with
    | .error _ => return some .resume
    | .ok _ =>
      if isRegistered then return none
      else match ← ask (.waitChannelActive nextHop (now + wait)) with
        | .error _ => return some .resume
        | .ok _ => return none

/-- The fee parameters used for a registration without any. -/
def defaultParams (now : Time) : OpeningFeeParams := i.config.defaultParams i.time now

/-- The capacity `openChannel` asks for, never the amount reserved for public channels. -/
def channelCapacity (incomingAmountMsat : Int64) : Int64 :=
  let capacity := incomingAmountMsat / 1000 + i.config.additionalChannelCapacity
  if capacity = i.config.publicChannelAmount then capacity + 1 else capacity

def openChannelRequest (destination : Bytes) (incomingAmountMsat : Int64) (fee : FeeEstimation) :
    OpenChannelRequest :=
  { destination
    capacitySat := (i.channelCapacity incomingAmountMsat).toUInt64
    minConfs := i.config.minConfs
    feeSatPerVByte := fee.satPerVByte
    targetConf := fee.targetConf
    routingPolicy := { ppm := i.config.routingPpm, baseMsat := i.config.baseFeeMsat } }

/-- Without a fee estimate the configured confirmation target is used. -/
def feeOrTarget : Except String (Option FeeEstimation) → FeeEstimation
  | .ok (some fee) => fee
  | _ => { satPerVByte := none, targetConf := some i.config.targetConf }

def openChannel (paymentHash destination : Bytes) (incomingAmountMsat : Int64)
    (tag : Option String) : Code (Except String OutPoint) := do
  let fee := i.feeOrTarget (← ask .estimateFeeRate)
  match ← ask (.openChannel (i.openChannelRequest destination incomingAmountMsat fee)) with
  | .error message => return .error message
  | .ok channelPoint =>
    ask (.sendOpenChannelEmailNotification paymentHash incomingAmountMsat destination
      (i.channelCapacity incomingAmountMsat) channelPoint tag)
    match ← ask (.setFundingTx paymentHash channelPoint) with
    | .error message => return .error message
    | .ok _ => return .ok channelPoint

/-- `bigAmt.Div(bigProd.Mul(outgoing, int64(part)), incoming).Int64()`: division
by zero panics, `Div` is Euclidean and `Int64` keeps the low 64 bits. -/
def forwardAmount (outgoing : Int64) (part : UInt64) (incoming : Int64) : Option Int64 :=
  if incoming = 0 then none
  else some (.ofInt (outgoing.toInt * part.toInt64.toInt / incoming.toInt))

/-- The result that forwards the htlc over the channel. -/
def onionResult (info : PaymentInfo) (channelPoint : OutPoint) (amt : Int64)
    (scid : ShortChannelID) : InterceptResult :=
  { action := .resumeWithOnion
    destination := info.destination
    channelPoint := some channelPoint
    scid
    paymentSecret := info.paymentSecret
    amountMsat := amt.toUInt64
    totalAmountMsat := info.outgoingAmountMsat.toUInt64
    useLegacyOnionBlob := i.config.legacyOnionTokens.contains info.token }

/-- One round of the wait for the channel. A channel without any scid is asked
for again without looking at the deadline. -/
def pollChannel (req : InterceptRequest) (info : PaymentInfo) (channelPoint : OutPoint)
    (amt : Int64) (deadline : Time) (_ : Unit) : Code (Unit ⊕ InterceptResult) := do
  match (← ask (.getChannel info.destination channelPoint)).1 with
  | some chanResult =>
    match chanResult.confirmedScid.or chanResult.aliasScid with
    | none =>
      ask (.sleep second)
      return .inl ()
    | some scid =>
      let lastUpdate ← ask .now
      let _ ← ask (.updateChannels [some {
        nodeID := i.nodeid
        peerId := info.destination
        aliasScid := chanResult.aliasScid
        confirmedScid := chanResult.confirmedScid
        channelPoint
        lastUpdate }])
      let forwardTime ← ask .now
      let _ ← ask (.addOpenChannelHtlc {
        nodeId := i.nodeid
        peerId := info.destination
        channelPoint
        originalAmountMsat := req.outgoingAmountMsat
        forwardAmountMsat := amt.toUInt64
        incomingAmountMsat := req.incomingAmountMsat
        forwardTime })
      return .inr (i.onionResult info channelPoint amt scid)
  | none =>
    let now ← ask .now
    if deadline < now then return .inr (.failWithCode failureTemporaryChannelFailure)
    else
      ask (.sleep second)
      return .inl ()

def forwardHtlc (req : InterceptRequest) (info : PaymentInfo) (channelPoint : OutPoint) :
    Code InterceptResult :=
  match forwardAmount info.outgoingAmountMsat req.outgoingAmountMsat info.incomingAmountMsat with
  | none => .panic
  | some amt => do
    let now ← ask .now
    forever (i.pollChannel req info channelPoint amt (now + 60 * second)) ()

def openAndForward (req : InterceptRequest) (info : PaymentInfo) : Code InterceptResult := do
  match ← i.openChannel req.paymentHash info.destination info.incomingAmountMsat info.tag with
  | .error _ => return .failWithCode failureTemporaryChannelFailure
  | .ok channelPoint => i.forwardHtlc req info channelPoint

/-- The guards in front of a channel opening: cltv delta and validity. -/
def openIfValid (req : InterceptRequest) (info : PaymentInfo) (params : OpeningFeeParams) :
    Code InterceptResult :=
  if (req.incomingExpiry.toNat : Int) - req.outgoingExpiry.toNat < i.config.timeLockDelta.toNat then
    return .failWithCode failureTemporaryChannelFailure
  else match i.time.parse params.validUntil with
    | none => return .failWithCode failureTemporaryChannelFailure
    | some validUntil => do
      let now ← ask .now
      if validUntil < now then
        if ← ask (.isCurrentChainFeeCheaper info.token params) then i.openAndForward req info
        else return .failWithCode failureTemporaryChannelFailure
      else i.openAndForward req info

/-- The first htlc of a registered payment opens the channel, later ones reuse it. -/
def interceptRegistered (req : InterceptRequest) (info : PaymentInfo) : Code InterceptResult :=
  match info.channelPoint with
  | some channelPoint => i.forwardHtlc req info channelPoint
  | none =>
    match info.params with
    | some params => i.openIfValid req info params
    | none => do
      let now ← ask .now
      i.openIfValid req info (i.defaultParams now)

/-- Both branches only notify; what `notifyAndWait` returns is logged and dropped. -/
def notifyPeer (req : InterceptRequest) (info : PaymentInfo) (nextHop : Bytes)
    (isConnected : Bool) : Code (Option InterceptResult) :=
  if isConnected then do
    ask (.goNotify (encodeToString nextHop) (encodeToString req.paymentHash))
    return none
  else i.notifyAndWait req.paymentHash nextHop info.paymentSecret.isSome

def interceptNextHop (req : InterceptRequest) (info : PaymentInfo) (nextHop : Bytes) :
    Code InterceptResult := do
  match ← ask (.isConnected nextHop) with
  | .error _ => return .failWithCode failureTemporaryChannelFailure
  | .ok isConnected =>
    if isProbe info req ∧ ¬ isConnected then return .resume
    else if isProbe info req ∧ info.channelPoint = none then
      return .failWithCode failureIncorrectOrUnknownPaymentDetails
    else
      let _ ← i.notifyPeer req info nextHop isConnected
      if info.paymentSecret.isSome then i.interceptRegistered req info
      else return .resume

/-- The closure `Intercept` runs under the payment hash. The error of
`GetPeerId` is dropped; the test that follows it reads an older error, nil here. -/
def intercept (req : InterceptRequest) : Code InterceptResult := do
  match ← ask (.paymentInfo req.paymentHash) with
  | .panic => .panic
  | .error _ => return .failWithCode failureTemporaryNodeFailure
  | .value info =>
    match (← ask (.getPeerId req.scid)).1 with
    | some nextHop =>
      if info.paymentSecret.isSome ∧ nextHop ≠ info.destination then return .resume
      else i.interceptNextHop req info nextHop
    | none =>
      if info.paymentSecret.isSome then i.interceptNextHop req info info.destination
      else return .resume

end Interceptor

end Lspd
