import Lspd.Process.Machine
import Mathlib.Data.List.Basic
import Mathlib.Logic.Function.Basic

/-! `NotificationService`: calls of `Notify`, which post to the webhooks that are
registered for a client unless the payment was notified recently, and the cleanup of
the times of recent notifications. -/

namespace Lspd.Notifications

open Lspd.Process

/-- Times and durations are in nanoseconds. -/
def minNotificationInterval : Nat := 30 * 1000000000

def paymentIdentifier (pubkey paymentHash : String) : String := pubkey ++ "|" ++ paymentHash

structure PaymentReceivedPayload where
  template : String
  paymentHash : String

def payload (paymentHash : String) : PaymentReceivedPayload := ⟨"payment_received", paymentHash⟩

/-- A post counts when it is answered with a status of the class 2xx. -/
def notifyOnce : Except String Int → Bool
  | .error _ => false
  | .ok statusCode => statusCode.tdiv 100 = 2

/-- Whether a notification is recent at a time. -/
def recently (lastTime : Option Nat) (now : Nat) : Bool :=
  match lastTime with
  | none => false
  | some lastTime => now < lastTime + minNotificationInterval

/-- The posts of one call. Rounds are numbered in the order in which calls start them. -/
structure Round where
  number : Nat
  start : Nat
  deriving DecidableEq

/-- Where a call is: it has read the time of the last notification, gets the
registrations, or waits for the answers of those left. A call that has returned may have
done so without posting. -/
inductive Phase where
  | idle
  | checking (lastTime : Option Nat)
  | fetching
  | posting (round : Round) (left : List String) (notified : Bool)
  | returned (round : Option Round) (result : Except String Bool)

/-- `cleaning` are the entries that a cleanup pass has yet to look at; it has `mtx`. -/
structure State where
  clock : Nat
  recentNotifications : String → Option Nat
  cleaning : Option (List String)
  calls : Nat → Phase
  rounds : Nat

namespace State

def setCall (s : State) (n : Nat) (phase : Phase) : State :=
  { s with calls := Function.update s.calls n phase }

def setRecent (s : State) (id : String) (time : Option Nat) : State :=
  { s with recentNotifications := Function.update s.recentNotifications id time }

/-- The next round of posts begins. -/
def startPosts (s : State) (n : Nat) (registrations : List String) : State :=
  { s.setCall n (.posting ⟨s.rounds, s.clock⟩ registrations false) with rounds := s.rounds + 1 }

end State

inductive Action where
  | internal
  | check (n : Nat)
  | post (n : Nat) (posts : List (String × PaymentReceivedPayload))

section Step

variable (args : Nat → String × String)

/-- The entry of the call with the given number. -/
def identifier (n : Nat) : String := paymentIdentifier (args n).1 (args n).2

/-- The steps of `Notify` and of a cleanup pass, for the pubkeys and payment hashes with
which `Notify` is called. Time passes between any two of them. -/
inductive Step (s : State) : Action → State → Prop where
  | tick (now : Nat) (later : s.clock ≤ now) : Step s .internal { s with clock := now }
  | check (n : Nat) (here : s.calls n = .idle) (free : s.cleaning = none) :
      Step s (.check n) (s.setCall n (.checking (s.recentNotifications (identifier args n))))
  | recent (n : Nat) (here : s.calls n = .checking lastTime)
      (soon : recently lastTime s.clock = true) :
      Step s .internal (s.setCall n (.returned none (.ok true)))
  | proceed (n : Nat) (here : s.calls n = .checking lastTime)
      (due : recently lastTime s.clock = false) : Step s .internal (s.setCall n .fetching)
  | fail (n : Nat) (err : String) (here : s.calls n = .fetching) :
      Step s .internal (s.setCall n (.returned none (.error err)))
  | post (n : Nat) (registrations : List String) (here : s.calls n = .fetching) :
      Step s (.post n (registrations.map fun url => (url, payload (args n).2)))
        (s.startPosts n registrations)
  | answer {round : Round} (n : Nat) (url : String) (response : Except String Int)
      (here : s.calls n = .posting round left notified) (pending : url ∈ left) :
      Step s .internal
        (s.setCall n (.posting round (left.erase url) (notified || notifyOnce response)))
  | giveUp {round : Round} (n : Nat) (here : s.calls n = .posting round [] false) :
      Step s .internal (s.setCall n (.returned (some round) (.ok false)))
  | record {round : Round} (n : Nat) (here : s.calls n = .posting round [] true)
      (free : s.cleaning = none) :
      Step s .internal ((s.setRecent (identifier args n) (some s.clock)).setCall n
        (.returned (some round) (.ok true)))
  | clean (ids : List String) (free : s.cleaning = none) (nodup : ids.Nodup)
      (all : ∀ id, id ∈ ids ↔ s.recentNotifications id ≠ none) :
      Step s .internal { s with cleaning := some ids }
  | remove {id : String} (here : s.cleaning = some (id :: ids))
      (found : s.recentNotifications id = some lastTime)
      (old : lastTime + minNotificationInterval < s.clock) :
      Step s .internal { s.setRecent id none with cleaning := some ids }
  | keep {id : String} (here : s.cleaning = some (id :: ids))
      (found : s.recentNotifications id = some lastTime)
      (young : ¬ lastTime + minNotificationInterval < s.clock) :
      Step s .internal { s with cleaning := some ids }
  | cleaned (here : s.cleaning = some []) : Step s .internal { s with cleaning := none }

def machine : Machine State Action where
  Initial s := s = ⟨s.clock, fun _ => none, none, fun _ => .idle, 0⟩
  Step := Step args

end Step

end Lspd.Notifications
