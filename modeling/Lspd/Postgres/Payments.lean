import Lspd.Common.Intercept
import Lspd.Store.Table

/-! The `payments` table: registrations and the channel opened for each. -/

namespace Lspd.Postgres

open Lspd.Common Lspd.Lightning Lspd.Store

structure ExtendedParams where
  token : String
  params : OpeningFeeParams
  deriving DecidableEq

/-- The jsonb column `opening_fee_params` up to what `json.Unmarshal` makes of
it: SQL NULL, a text it refuses, the literal `null`, or an object. -/
inductive ParamsColumn where
  | sqlNull
  | malformed
  | jsonNull
  | object (params : ExtendedParams)
  deriving DecidableEq

structure PaymentRow where
  paymentHash : Bytes
  paymentSecret : Bytes
  destination : Bytes
  incomingAmountMsat : Int64
  outgoingAmountMsat : Int64
  fundingTxId : Option Bytes
  fundingTxOutnum : Option Int32
  openingFeeParams : ParamsColumn
  tag : Option String
  deriving DecidableEq

/-- `payment_hash` is the primary key. -/
abbrev Payments := Table PaymentRow PaymentRow.paymentHash

/-- The results of `PaymentInfo` after the error; a nil secret is how callers
see that no payment was found. -/
structure PaymentInfo where
  token : String
  params : Option OpeningFeeParams
  paymentHash : Bytes
  paymentSecret : Option Bytes
  destination : Bytes
  incomingAmountMsat : Int64
  outgoingAmountMsat : Int64
  channelPoint : Option OutPoint
  tag : Option String
  deriving DecidableEq

def PaymentInfo.missing : PaymentInfo :=
  { token := "", params := none, paymentHash := [], paymentSecret := none, destination := [],
    incomingAmountMsat := 0, outgoingAmountMsat := 0, channelPoint := none, tag := none }

/-- `uint32(fundingTxOutnum.Int)`; a NULL outnum scans as zero. -/
def PaymentRow.channelPoint (row : PaymentRow) : Option OutPoint :=
  row.fundingTxId.bind fun fundingTxId =>
    newOutPoint fundingTxId (row.fundingTxOutnum.getD 0).toUInt32

/-- The part of `PaymentInfo` after the query. A row without a params object
leaves `extParams` nil, and its fields are read all the same. -/
def PaymentRow.info (row : PaymentRow) : Outcome PaymentInfo :=
  match row.openingFeeParams with
  | .malformed => .error "Failed to unmarshal OpeningFeeParams"
  | .sqlNull | .jsonNull => .panic
  | .object extended => .value
    { token := extended.token
      params := some extended.params
      paymentHash := row.paymentHash
      paymentSecret := some row.paymentSecret
      destination := row.destination
      incomingAmountMsat := row.incomingAmountMsat
      outgoingAmountMsat := row.outgoingAmountMsat
      channelPoint := row.channelPoint
      tag := row.tag }

def probingPrefix : Bytes := "probing-01:".toUTF8.toList

section store

variable (sha256 : Bytes → Bytes)

/-- `sha256('probing-01:' || payment_hash)`. -/
def probingHash (paymentHash : Bytes) : Bytes := sha256 (probingPrefix ++ paymentHash)

/-- The WHERE clause of `PaymentInfo`. -/
def PaymentRow.Matches (row : PaymentRow) (htlcPaymentHash : Bytes) : Prop :=
  row.paymentHash = htlcPaymentHash ∨ probingHash sha256 row.paymentHash = htlcPaymentHash

instance (row : PaymentRow) (htlcPaymentHash : Bytes) :
    Decidable (row.Matches sha256 htlcPaymentHash) :=
  inferInstanceAs (Decidable (_ ∨ _))

/-- The replies `PaymentInfo` can give over a table. The query has no order, so
any matching row may be the one that is read; a failed query is an error. -/
inductive PaymentInfoReply (payments : Payments) (htlcPaymentHash : Bytes) :
    Outcome PaymentInfo → Prop where
  | failed (message : String) : PaymentInfoReply payments htlcPaymentHash (.error message)
  | missing (absent : ∀ row ∈ payments.rows, ¬ row.Matches sha256 htlcPaymentHash) :
      PaymentInfoReply payments htlcPaymentHash (.value .missing)
  | found (member : row ∈ payments.rows) (found : row.Matches sha256 htlcPaymentHash) :
      PaymentInfoReply payments htlcPaymentHash row.info

/-- `PaymentInfo` over a store that answers with the first row it finds. -/
def paymentInfo (payments : Payments) (htlcPaymentHash : Bytes) : Outcome PaymentInfo :=
  match payments.rows.find? (fun row => row.Matches sha256 htlcPaymentHash) with
  | none => .value .missing
  | some row => row.info

theorem paymentInfo_reply (payments : Payments) (hash : Bytes) :
    PaymentInfoReply sha256 payments hash (paymentInfo sha256 payments hash) := by
  unfold paymentInfo
  split
  · rename_i absent
    exact .missing (by simpa using absent)
  · rename_i row found
    exact .found (List.mem_of_find?_eq_some found) (by simpa using List.find?_some found)

variable {sha256}

/-- A reply that reports a registered payment was read from one row. -/
theorem PaymentInfoReply.registered {payments : Payments} {hash : Bytes} {info : PaymentInfo}
    (reply : PaymentInfoReply sha256 payments hash (.value info))
    (registered : info.paymentSecret.isSome) :
    ∃ row ∈ payments.rows, row.Matches sha256 hash ∧ row.info = .value info := by
  generalize same : Outcome.value info = outcome at reply
  cases reply with
  | failed message => cases same
  | missing absent =>
    cases same
    simp [PaymentInfo.missing] at registered
  | found member found => exact ⟨_, member, found, rfl⟩

end store

/-- What a registration keeps of a row for good: every column but the funding ones. -/
def PaymentRow.registration (row : PaymentRow) : PaymentRow :=
  { row with fundingTxId := none, fundingTxOutnum := none }

def PaymentRow.fund (channelPoint : OutPoint) (row : PaymentRow) : PaymentRow :=
  { row with
    fundingTxId := some channelPoint.hash.1
    fundingTxOutnum := some channelPoint.index.toInt32 }

/-- `SetFundingTx`, when the statement runs. -/
def setFundingTx (payments : Payments) (paymentHash : Bytes) (channelPoint : OutPoint) : Payments :=
  payments.modify paymentHash (.fund channelPoint) (fun _ => rfl)

theorem find?_setFundingTx (payments : Payments) (paymentHash wanted : Bytes)
    (channelPoint : OutPoint) :
    (setFundingTx payments paymentHash channelPoint).find? wanted =
      (payments.find? wanted).map fun row =>
        if wanted = paymentHash then row.fund channelPoint else row :=
  Table.find?_modify payments paymentHash wanted _ _

/-- The column is an `int4`, so a larger output index cannot be encoded. -/
def fitsOutnum (channelPoint : OutPoint) : Bool := channelPoint.index.toNat < 2 ^ 31

@[simp] theorem PaymentRow.fund_channelPoint (row : PaymentRow) (channelPoint : OutPoint) :
    (row.fund channelPoint).channelPoint = some channelPoint := by
  simp [PaymentRow.fund, PaymentRow.channelPoint]

/-- The column of the tag is jsonb, which keeps the value of a json text and not its
layout: a tag here has the layout in which jsonb gives it back. -/
structure Registration where
  token : String
  params : Option OpeningFeeParams
  destination : Option Bytes
  paymentHash : Option Bytes
  paymentSecret : Option Bytes
  incomingAmountMsat : Int64
  outgoingAmountMsat : Int64
  tag : String

/-- The row `RegisterPayment` inserts. A nil byte slice is sent as NULL and
violates NOT NULL; without params an empty text is sent, which is no jsonb. -/
def Registration.row (registration : Registration) : Option PaymentRow :=
  match registration.params, registration.destination, registration.paymentHash,
      registration.paymentSecret with
  | some params, some destination, some paymentHash, some paymentSecret => some
    { paymentHash, paymentSecret, destination
      incomingAmountMsat := registration.incomingAmountMsat
      outgoingAmountMsat := registration.outgoingAmountMsat
      fundingTxId := none
      fundingTxOutnum := none
      openingFeeParams := .object ⟨registration.token, params⟩
      tag := if registration.tag = "" then none else some registration.tag }
  | _, _, _, _ => none

/-- `RegisterPayment`, when the statement runs. -/
def registerPayment (payments : Payments) (registration : Registration) : Option Payments :=
  registration.row.map payments.insertNew

/-- What time does to a row: its registration stays, and so does its channel
once it has one. -/
structure PaymentRow.Grows (old new : PaymentRow) : Prop where
  registration : new.registration = old.registration
  channel : ∀ channelPoint, old.channelPoint = some channelPoint →
    new.channelPoint = some channelPoint

theorem PaymentRow.Grows.refl (row : PaymentRow) : row.Grows row := ⟨rfl, fun _ => id⟩

theorem PaymentRow.Grows.trans {first second third : PaymentRow} (early : first.Grows second)
    (late : second.Grows third) : first.Grows third :=
  ⟨late.registration.trans early.registration,
    fun channelPoint has => late.channel channelPoint (early.channel channelPoint has)⟩

/-- The columns a registration fills never change. -/
theorem PaymentRow.Grows.column {β : Type} {old new : PaymentRow} (grows : old.Grows new)
    (column : PaymentRow → β) (kept : ∀ row, column row.registration = column row) :
    column new = column old := by
  rw [← kept new, ← kept old, grows.registration]

theorem PaymentRow.Grows.paymentHash {old new : PaymentRow} (grows : old.Grows new) :
    new.paymentHash = old.paymentHash :=
  grows.column PaymentRow.paymentHash fun _ => rfl

/-- Every row of the earlier table lives on in the later one. -/
def Grow (old new : Payments) : Prop := ∀ row ∈ old.rows, ∃ later ∈ new.rows, row.Grows later

theorem Grow.refl (payments : Payments) : Grow payments payments :=
  fun row member => ⟨row, member, .refl row⟩

theorem Grow.trans {first second third : Payments} (early : Grow first second)
    (late : Grow second third) : Grow first third := by
  intro row member
  obtain ⟨next, present, grows⟩ := early row member
  obtain ⟨last, there, further⟩ := late next present
  exact ⟨last, there, grows.trans further⟩

theorem grow_registerPayment {payments after : Payments} {registration : Registration}
    (registers : registerPayment payments registration = some after) : Grow payments after := by
  intro row member
  obtain ⟨new, _, rfl⟩ := Option.map_eq_some_iff.mp registers
  exact ⟨row, Table.mem_insertNew_of_mem new member, .refl row⟩

/-- A registration never brings a channel along. -/
theorem unfunded_registerPayment {payments after : Payments} {registration : Registration}
    {row : PaymentRow} (registers : registerPayment payments registration = some after)
    (member : row ∈ after.rows) : row ∈ payments.rows ∨ row.channelPoint = none := by
  obtain ⟨new, made, rfl⟩ := Option.map_eq_some_iff.mp registers
  rcases Table.mem_of_mem_insertNew member with old | rfl
  · exact .inl old
  · right
    unfold Registration.row at made
    split at made
    · cases made
      rfl
    · cases made

theorem grow_setFundingTx {payments : Payments} {paymentHash : Bytes} (channelPoint : OutPoint)
    (unfunded : ∀ row ∈ payments.rows, row.paymentHash = paymentHash → row.channelPoint = none) :
    Grow payments (setFundingTx payments paymentHash channelPoint) := by
  intro row member
  refine ⟨_, Table.mem_modify.mpr ⟨row, member, rfl⟩, ?_⟩
  split
  · rename_i same
    exact ⟨rfl, fun other has => by simp [unfunded row member same] at has⟩
  · exact .refl row

theorem funded_setFundingTx {payments : Payments} {row : PaymentRow} (channelPoint : OutPoint)
    (member : row ∈ payments.rows) :
    ∃ later ∈ (setFundingTx payments row.paymentHash channelPoint).rows,
      later.paymentHash = row.paymentHash ∧ later.channelPoint = some channelPoint :=
  ⟨row.fund channelPoint, Table.mem_modify.mpr ⟨row, member, by simp⟩, rfl, by simp⟩

theorem mem_setFundingTx_of_ne {payments : Payments} {row : PaymentRow} {paymentHash : Bytes}
    {channelPoint : OutPoint} (member : row ∈ (setFundingTx payments paymentHash channelPoint).rows)
    (different : row.paymentHash ≠ paymentHash) : row ∈ payments.rows := by
  obtain ⟨old, present, rfl⟩ := Table.mem_modify.mp member
  split at different
  · rename_i same
    exact absurd same different
  · rename_i other
    simpa [other] using present

end Lspd.Postgres
