import Lspd.Common.Intercept

/-! What `LndHtlcInterceptor` asks the handler for a request of lnd, and what it
answers. -/

namespace Lspd.Lnd

open Lspd.Common Lspd.Lightning

structure CircuitKey where
  chanId : UInt64
  htlcId : UInt64
  deriving DecidableEq

structure ForwardHtlcInterceptRequest where
  incomingCircuitKey : CircuitKey
  incomingAmountMsat : UInt64
  incomingExpiry : UInt32
  paymentHash : Bytes
  outgoingRequestedChanId : UInt64
  outgoingAmountMsat : UInt64
  outgoingExpiry : UInt32
  onionBlob : Bytes
  deriving DecidableEq

inductive ResolveHoldForwardAction where
  | settle
  | fail
  | resume
  deriving DecidableEq

inductive FailureCode where
  | reserved
  | incorrectOrUnknownPaymentDetails
  | temporaryChannelFailure
  | temporaryNodeFailure
  deriving DecidableEq

structure ForwardHtlcInterceptResponse where
  incomingCircuitKey : CircuitKey
  action : ResolveHoldForwardAction
  failureCode : FailureCode := .reserved
  outgoingAmountMsat : UInt64 := 0
  outgoingRequestedChanId : UInt64 := 0
  onionBlob : Bytes := []
  deriving DecidableEq

def mapFailureCode (original : InterceptFailureCode) : FailureCode :=
  if original = failureTemporaryChannelFailure then .temporaryChannelFailure
  else if original = failureTemporaryNodeFailure then .temporaryNodeFailure
  else if original = failureIncorrectOrUnknownPaymentDetails then .incorrectOrUnknownPaymentDetails
  else .temporaryChannelFailure

/-- The text of a circuit key, and the onion packet for the last hop, which has a
random session key and can fail. -/
structure LndHtlcInterceptor where
  circuitKeyString : CircuitKey → String
  constructOnion : InterceptResult → UInt32 → Bytes → Option Bytes

namespace LndHtlcInterceptor

variable (i : LndHtlcInterceptor)

def createOnionResponse (interceptResult : InterceptResult) (request : ForwardHtlcInterceptRequest) :
    ForwardHtlcInterceptResponse :=
  let onionBlob :=
    if interceptResult.useLegacyOnionBlob then
      i.constructOnion interceptResult request.outgoingExpiry request.paymentHash
    else some request.onionBlob
  match onionBlob with
  | none =>
    { incomingCircuitKey := request.incomingCircuitKey
      action := .fail
      failureCode := .temporaryChannelFailure }
  | some onionBlob =>
    { incomingCircuitKey := request.incomingCircuitKey
      action := .resume
      outgoingAmountMsat := interceptResult.amountMsat
      outgoingRequestedChanId := interceptResult.scid
      onionBlob }

def respond (request : ForwardHtlcInterceptRequest) (interceptResult : InterceptResult) :
    ForwardHtlcInterceptResponse :=
  match interceptResult.action with
  | .resumeWithOnion => i.createOnionResponse interceptResult request
  | .failHtlcWithCode =>
    { incomingCircuitKey := request.incomingCircuitKey
      action := .fail
      failureCode := mapFailureCode interceptResult.failureCode }
  | .resume | .ignore =>
    { incomingCircuitKey := request.incomingCircuitKey
      action := .resume
      outgoingAmountMsat := request.outgoingAmountMsat
      outgoingRequestedChanId := request.outgoingRequestedChanId
      onionBlob := request.onionBlob }

def interceptRequest (request : ForwardHtlcInterceptRequest) : InterceptRequest :=
  { identifier := i.circuitKeyString request.incomingCircuitKey
    scid := request.outgoingRequestedChanId
    paymentHash := request.paymentHash
    incomingAmountMsat := request.incomingAmountMsat
    outgoingAmountMsat := request.outgoingAmountMsat
    incomingExpiry := request.incomingExpiry
    outgoingExpiry := request.outgoingExpiry }

/-- Every request goes to the handler, and every result is sent. -/
def backend : Backend ForwardHtlcInterceptRequest ForwardHtlcInterceptResponse where
  prepare request := .ok (i.interceptRequest request)
  respond request interceptResult := some (i.respond request interceptResult)

end LndHtlcInterceptor

end Lspd.Lnd
