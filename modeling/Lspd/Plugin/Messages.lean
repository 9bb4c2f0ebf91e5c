import Lspd.Common.Intercept
import Lspd.Store.Table

/-! What the cln plugin passes on: the `htlc_accepted` requests of cln, and the
results that become its responses. -/

namespace Lspd.Plugin

open Lspd.Common

structure Onion where
  payload : String
  shortChannelId : Option String
  forwardMsat : Option UInt64
  outgoingCltvValue : Option UInt32
  sharedSecret : Option String
  nextOnion : Option String
  deriving DecidableEq

structure Htlc where
  shortChannelId : String
  id : UInt64
  amountMsat : UInt64
  cltvExpiry : UInt32
  cltvExpiryRelative : Int32
  paymentHash : String
  deriving DecidableEq

structure HtlcAccepted where
  onion : Onion
  htlc : Htlc
  forwardTo : String
  deriving DecidableEq

/-- `htlcAcceptedMsg`. -/
structure HtlcAcceptedMsg where
  id : String
  htlc : HtlcAccepted
  timeout : Time
  deriving DecidableEq

/-- The oneof of a `HtlcResolution`; `unset` is a message without an outcome. -/
inductive HtlcOutcome where
  | continue (payload forwardTo : Option String)
  | failMessage (failureMessage : String)
  | failOnion (failureOnion : String)
  | failUnset
  | resolve (paymentKey : String)
  | unset
  deriving DecidableEq

/-- The fields of the json object cln gets as result. -/
abbrev HtlcResult := List (String × String)

def defaultResult : HtlcResult := [("result", "continue")]

def mapHtlcResult : HtlcOutcome → HtlcResult
  | .continue payload forwardTo =>
    [("result", "continue")] ++ (forwardTo.map fun text => ("forward_to", text)).toList ++
      (payload.map fun text => ("payload", text)).toList
  | .failMessage failureMessage => [("result", "fail"), ("failure_message", failureMessage)]
  | .failOnion failureOnion => [("result", "fail"), ("failure_onion", failureOnion)]
  | .failUnset => [("result", "fail")]
  | .resolve paymentKey => [("result", "resolve"), ("payment_key", paymentKey)]
  | .unset => defaultResult

/-- `htlcResultMsg`. -/
structure HtlcResultMsg where
  id : String
  result : HtlcResult
  deriving DecidableEq

end Lspd.Plugin
