import Lspd.Lightning.OutPoint
import Lspd.Lightning.ShortChannelID

/-! Requests, results and fee parameters shared by the htlc handlers. -/

namespace Lspd.Common

open Lspd.Lightning

/-- An instant or a duration in nanoseconds. -/
abbrev Time := Int

def second : Time := 1000000000

/-- What a Go call with an error result can do to its caller. -/
inductive Outcome (α : Type) where
  | value (result : α)
  | error (message : String)
  | panic

inductive InterceptAction where
  | resume
  | resumeWithOnion
  | failHtlcWithCode
  | ignore
  deriving DecidableEq, Repr

abbrev InterceptFailureCode := UInt16

def failureTemporaryChannelFailure : InterceptFailureCode := 0x1007
def failureAmountBelowMinimum : InterceptFailureCode := 0x100B
def failureIncorrectCltvExpiry : InterceptFailureCode := 0x100D
def failureTemporaryNodeFailure : InterceptFailureCode := 0x2002
def failureUnknownNextPeer : InterceptFailureCode := 0x400A
def failureIncorrectOrUnknownPaymentDetails : InterceptFailureCode := 0x400F

structure InterceptRequest where
  identifier : String
  scid : ShortChannelID
  paymentHash : Bytes
  incomingAmountMsat : UInt64
  outgoingAmountMsat : UInt64
  incomingExpiry : UInt32
  outgoingExpiry : UInt32
  deriving DecidableEq

/-- Fields a return statement does not set keep Go's zero value. -/
structure InterceptResult where
  action : InterceptAction
  failureCode : InterceptFailureCode := 0
  destination : Bytes := []
  amountMsat : UInt64 := 0
  feeMsat : Option UInt64 := none
  totalAmountMsat : UInt64 := 0
  channelPoint : Option OutPoint := none
  scid : ShortChannelID := 0
  paymentSecret : Option Bytes := none
  useLegacyOnionBlob : Bool := false
  deriving DecidableEq

namespace InterceptResult

def resume : InterceptResult := { action := .resume }

def failWithCode (code : InterceptFailureCode) : InterceptResult :=
  { action := .failHtlcWithCode, failureCode := code }

@[simp] theorem resume_action : resume.action = .resume := rfl

@[simp] theorem failWithCode_action (code : InterceptFailureCode) :
    (failWithCode code).action = .failHtlcWithCode := rfl

end InterceptResult

/-- `CombinedHandler.Intercept`, given what each of its handlers returns when asked:
the first result that is not to resume. -/
def combine (results : List InterceptResult) : InterceptResult :=
  (results.find? fun result => result.action ≠ .resume).getD .resume

/-- What the two backends do with a request of their stream: some are answered at
once, the others as the handler decides. -/
structure Backend (Request Response : Type) where
  prepare : Request → Except Response InterceptRequest
  respond : Request → InterceptResult → Option Response

structure OpeningFeeParams where
  minFeeMsat : UInt64
  proportional : UInt32
  validUntil : String
  minLifetime : UInt32
  maxClientToSelfDelay : UInt32
  promise : String
  deriving DecidableEq

/-- The settings of a node the handler reads. `routingPpm` is
`uint32(FeeRate * 1_000_000)`. -/
structure NodeConfig where
  legacyOnionTokens : List String
  publicChannelAmount : Int64
  targetConf : UInt32
  minConfs : Option UInt32
  baseFeeMsat : UInt64
  routingPpm : UInt32
  timeLockDelta : UInt32
  channelFeePermyriad : Int64
  channelMinimumFeeMsat : Int64
  additionalChannelCapacity : Int64
  maxInactiveDuration : UInt64
  notificationTimeout : String

/-- The functions of Go's `time` package the code calls on texts, for the
layout `format.TIME_FORMAT`. -/
structure TimeTexts where
  parse : String → Option Time
  format : Time → String
  parseDuration : String → Option Time

/-- The fee parameters both handlers fall back on when a registration has none. -/
def NodeConfig.defaultParams (config : NodeConfig) (time : TimeTexts) (now : Time) :
    OpeningFeeParams :=
  { minFeeMsat := config.channelMinimumFeeMsat.toUInt64
    proportional := (config.channelFeePermyriad * 100).toUInt64.toUInt32
    validUntil := time.format (now + 24 * 3600 * second)
    minLifetime := (config.maxInactiveDuration / 600).toUInt32
    maxClientToSelfDelay := 10000
    promise := "" }

end Lspd.Common
