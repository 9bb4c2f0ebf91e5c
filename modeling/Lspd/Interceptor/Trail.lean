import Lspd.Interceptor.Handler

/-! The calls of one execution of `Intercept` and what is read off them: the
payment it works on, the channels it opened and what it wrote to the stores. -/

namespace Lspd.Interceptor

open Lspd.Common Lspd.Lightning Lspd.Postgres Lspd.Process

abbrev Trail := History Op Reply

def opens? : Event Op Reply → Option OpenChannelRequest
  | ⟨.openChannel request, _⟩ => some request
  | _ => none

def opened? : Event Op Reply → Option OutPoint
  | ⟨.openChannel _, .ok channelPoint⟩ => some channelPoint
  | _ => none

def funding? : Event Op Reply → Option (Bytes × OutPoint × Bool)
  | ⟨.setFundingTx paymentHash channelPoint, written⟩ =>
    some (paymentHash, channelPoint, written.isOk)
  | _ => none

def record? : Event Op Reply → Option (OpenChannelHtlc × Bool)
  | ⟨.addOpenChannelHtlc htlc, stored⟩ => some (htlc, stored.isOk)
  | _ => none

def clock? : Event Op Reply → Option Time
  | ⟨.now, time⟩ => some time
  | _ => none

/-- The channel openings asked for. -/
def opens (trail : Trail) : List OpenChannelRequest := trail.filterMap opens?

/-- The channels the node did open. -/
def opened (trail : Trail) : List OutPoint := trail.filterMap opened?

/-- The writes of a funding outpoint; the flag says whether one succeeded. -/
def fundings (trail : Trail) : List (Bytes × OutPoint × Bool) := trail.filterMap funding?

/-- The htlcs handed to the history store; the flag says whether one was stored. -/
def records (trail : Trail) : List (OpenChannelHtlc × Bool) := trail.filterMap record?

/-- The times read off the clock, the latest last. -/
def clocks (trail : Trail) : List Time := trail.filterMap clock?

/-- The payment an execution works on, read by its first call. -/
def info? (trail : Trail) : Option PaymentInfo :=
  trail.head?.bind fun
    | ⟨.paymentInfo _, .value info⟩ => some info
    | _ => none

section trails

variable (trail more : Trail)

@[simp] theorem opens_append : opens (trail ++ more) = opens trail ++ opens more :=
  List.filterMap_append

@[simp] theorem opened_append : opened (trail ++ more) = opened trail ++ opened more :=
  List.filterMap_append

@[simp] theorem fundings_append : fundings (trail ++ more) = fundings trail ++ fundings more :=
  List.filterMap_append

@[simp] theorem records_append : records (trail ++ more) = records trail ++ records more :=
  List.filterMap_append

@[simp] theorem clocks_append : clocks (trail ++ more) = clocks trail ++ clocks more :=
  List.filterMap_append

variable (event : Event Op Reply)

private theorem filterMap_cons_toList {β : Type} (pick : Event Op Reply → Option β) :
    (event :: trail).filterMap pick = (pick event).toList ++ trail.filterMap pick := by
  cases chosen : pick event <;> simp [chosen]

@[simp] theorem opens_cons : opens (event :: trail) = (opens? event).toList ++ opens trail :=
  filterMap_cons_toList ..

@[simp] theorem opened_cons : opened (event :: trail) = (opened? event).toList ++ opened trail :=
  filterMap_cons_toList ..

@[simp] theorem fundings_cons :
    fundings (event :: trail) = (funding? event).toList ++ fundings trail :=
  filterMap_cons_toList ..

@[simp] theorem records_cons : records (event :: trail) = (record? event).toList ++ records trail :=
  filterMap_cons_toList ..

@[simp] theorem clocks_cons : clocks (event :: trail) = (clock? event).toList ++ clocks trail :=
  filterMap_cons_toList ..

@[simp] theorem opens_nil : opens [] = [] := rfl
@[simp] theorem opened_nil : opened [] = [] := rfl
@[simp] theorem fundings_nil : fundings [] = [] := rfl
@[simp] theorem records_nil : records [] = [] := rfl
theorem opened_eq_nil {trail : Trail} (unasked : opens trail = []) : opened trail = [] := by
  rw [opens, List.filterMap_eq_nil_iff] at unasked
  rw [opened, List.filterMap_eq_nil_iff]
  rintro ⟨op, reply⟩ member
  have asked := unasked _ member
  cases op with
  | openChannel request => simp [opens?] at asked
  | _ => rfl

theorem info?_append {trail : Trail} {info : PaymentInfo} (read : info? trail = some info) :
    info? (trail ++ more) = some info := by
  cases trail with
  | nil => simp [info?] at read
  | cons first rest => simpa [info?] using read

end trails

/-- Calls that neither open a channel nor write to a store this file tracks. -/
structure Neutral (more : Trail) : Prop where
  opens : opens more = []
  opened : opened more = []
  fundings : fundings more = []
  records : records more = []

theorem Neutral.extend {trail : Trail} (first : Neutral trail) (more : Trail)
    (second : Neutral more) : Neutral (trail ++ more) :=
  ⟨by simp [first.opens, second.opens], by simp [first.opened, second.opened],
    by simp [first.fundings, second.fundings], by simp [first.records, second.records]⟩

end Lspd.Interceptor
