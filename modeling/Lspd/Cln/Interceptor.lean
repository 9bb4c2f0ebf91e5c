import Lspd.Plugin.Messages

/-! What `ClnHtlcInterceptor` asks the handler for a request of the cln plugin, and
what it answers. -/

namespace Lspd.Cln

open Lspd.Common Lspd.Lightning Lspd.Plugin

/-- `proto.HtlcAccepted`. -/
structure HtlcAccepted where
  correlationid : String
  onion : Option Onion
  htlc : Htlc
  deriving DecidableEq

/-- `proto.HtlcResolution`. -/
structure HtlcResolution where
  correlationid : String
  outcome : HtlcOutcome
  deriving DecidableEq

def mapFailureCode (original : InterceptFailureCode) : String :=
  if original = failureTemporaryChannelFailure then "1007"
  else if original = failureAmountBelowMinimum then "100B"
  else if original = failureIncorrectCltvExpiry then "100D"
  else if original = failureTemporaryNodeFailure then "2002"
  else if original = failureUnknownNextPeer then "400A"
  else if original = failureIncorrectOrUnknownPaymentDetails then "400F"
  else "1007"

def defaultResolution (request : HtlcAccepted) : HtlcResolution :=
  ⟨request.correlationid, .continue none none⟩

def failWithCode (request : HtlcAccepted) (code : InterceptFailureCode) : HtlcResolution :=
  ⟨request.correlationid, .failMessage (mapFailureCode code)⟩

/-- The payload with another next hop, if the old one can be decoded, and the text of
the channel id of an outpoint. -/
structure ClnHtlcInterceptor where
  encodePayloadWithNextHop : Bytes → ShortChannelID → UInt64 → Option UInt64 → Option Bytes
  chanIdString : OutPoint → String

namespace ClnHtlcInterceptor

variable (i : ClnHtlcInterceptor)

/-- `onion` is that of the request, which is there when the handler was asked. -/
def resumeWithOnion (request : HtlcAccepted) (onion : Onion) (interceptResult : InterceptResult) :
    HtlcResolution :=
  match decodeString onion.payload with
  | none => failWithCode request failureTemporaryChannelFailure
  | some payload =>
    match i.encodePayloadWithNextHop payload interceptResult.scid interceptResult.amountMsat
        interceptResult.feeMsat with
    | none => failWithCode request failureTemporaryChannelFailure
    | some newPayload =>
      match interceptResult.channelPoint with
      | none => failWithCode request failureTemporaryChannelFailure
      | some channelPoint =>
        ⟨request.correlationid,
          .continue (some (encodeToString newPayload)) (some (i.chanIdString channelPoint))⟩

/-- The request for the handler. One whose payment hash, onion or channel id cannot
be read is let through without asking. -/
def interceptRequest (request : HtlcAccepted) : Except HtlcResolution InterceptRequest :=
  match decodeString request.htlc.paymentHash, request.onion with
  | some paymentHash, some
      { shortChannelId := some shortChannelId, sharedSecret := some sharedSecret,
        forwardMsat := some forwardMsat, outgoingCltvValue := some outgoingCltvValue, .. } =>
    if shortChannelId = "" then .error (defaultResolution request)
    else match newShortChannelIDFromString shortChannelId with
      | .error _ => .error (defaultResolution request)
      | .ok scid =>
        .ok { identifier := sharedSecret
              scid
              paymentHash
              incomingAmountMsat := request.htlc.amountMsat
              outgoingAmountMsat := forwardMsat
              incomingExpiry := request.htlc.cltvExpiry
              outgoingExpiry := outgoingCltvValue }
  | _, _ => .error (defaultResolution request)

/-- `INTERCEPT_IGNORE` is not answered. -/
def respond (request : HtlcAccepted) (interceptResult : InterceptResult) : Option HtlcResolution :=
  match interceptResult.action with
  | .resumeWithOnion => request.onion.map fun onion => i.resumeWithOnion request onion interceptResult
  | .failHtlcWithCode => some (failWithCode request interceptResult.failureCode)
  | .ignore => none
  | .resume => some (defaultResolution request)

def backend : Backend HtlcAccepted HtlcResolution where
  prepare := interceptRequest
  respond := i.respond

end ClnHtlcInterceptor

end Lspd.Cln
