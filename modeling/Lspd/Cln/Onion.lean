import Lspd.Cln.Interceptor
import Lspd.Codec.Tlv
import Lspd.Common.OpeningService

/-! How the payload of an onion gets another next hop and amount before cln forwards the
htlc. -/

namespace Lspd.Cln

open Lspd.Codec Lspd.Common Lspd.Lightning Lspd.Plugin

section model

def nextHopOnionType : UInt64 := 6

def amtOnionType : UInt64 := 2

/-- The length above which Go's `make` panics. -/
def maxAlloc : Nat := 2 ^ 48

/-- The comparison of `tlv.SortRecords`. -/
def recordLess (one two : TlvRecord) : Bool := one.type < two.type

/-- What Go leaves open: in which order the two maps are ranged over, and how records
are sorted. -/
structure MapOrders where
  tlvMap : List TlvRecord → List TlvRecord
  tlvMap_perm : ∀ records, (tlvMap records).Perm records
  uTlvMap : List TlvRecord → List TlvRecord
  uTlvMap_perm : ∀ records, (uTlvMap records).Perm records
  sortRecords : SortSlice recordLess

/-- What `NewNextHopIDRecord` encodes. -/
def nextHopValue (scid : ShortChannelID) : Bytes := toBigEndian 8 scid.toNat

/-- What `NewAmtToFwdRecord` encodes, an integer without leading zeros. -/
def amtValue (amountToForward : UInt64) : Bytes := toBigEndian 0 amountToForward.toNat

theorem length_nextHopValue (scid : ShortChannelID) : (nextHopValue scid).length = 8 :=
  length_toBigEndian scid.toNat_lt

theorem length_amtValue (amountToForward : UInt64) : (amtValue amountToForward).length ≤ 8 :=
  length_toBigEndian_zero amountToForward.toNat_lt

/-- The entry of the new map for an entry of the old one. -/
def replaceRecord (scid : ShortChannelID) (amountToForward : UInt64) (record : TlvRecord) :
    TlvRecord :=
  if record.type = nextHopOnionType then
    ⟨record.type, nextHopValue scid, by rw [length_nextHopValue]; decide⟩
  else if record.type = amtOnionType then
    ⟨record.type, amtValue amountToForward,
      (length_amtValue amountToForward).trans_lt (by decide)⟩
  else record

def mapToRecords (orders : MapOrders) (uTlvMap : List TlvRecord) : List TlvRecord :=
  orders.sortRecords.sort (orders.uTlvMap uTlvMap)

/-- `tlv.NewStream`. -/
def newStream (records : List TlvRecord) : Option (List TlvRecord) :=
  if records.Pairwise (·.type < ·.type) then some records else none

/-- A map is the list of its entries. The messages leave out the values and the errors
of the libraries. -/
def encodePayloadWithNextHop (orders : MapOrders) (payload : Bytes) (scid : ShortChannelID)
    (amountToForward : UInt64) (_feeMsat : Option UInt64) : Outcome Bytes :=
  match readBigSize payload with
  | none => .error "failed to read payload length"
  | some (varInt, rest) =>
    if maxAlloc < varInt.toNat then .panic
    else if rest.length < varInt.toNat then .error "failed to decode payload"
    else
      match readStream maxAlloc (rest.take varInt.toNat) with
      | .error .malformed => .error "DecodeWithParsedTypes failed"
      | .error .tooLarge => .panic
      | .ok tlvMap =>
        let uTlvMap := (orders.tlvMap tlvMap).map (replaceRecord scid amountToForward)
        match newStream (mapToRecords orders uTlvMap) with
        | none => .error "tlv.NewStream error"
        | some records => .value (records.flatMap TlvRecord.bytes)

end model

section specification

/-- A payload begins with its length. What comes after that many bytes is not read. -/
structure Carries (payload inner : Bytes) : Prop where
  prefixed : ∃ rest, payload = writeBigSize (.ofNat inner.length) ++ (inner ++ rest)
  bounded : inner.length < UInt64.size

/-- The payloads that can be rewritten: what they carry is a stream of records. -/
def Accepted (payload : Bytes) : Prop :=
  ∃ inner records, Carries payload inner ∧ inner.length ≤ maxAlloc ∧ IsStream inner records

/-- A record of the forwarded payload against the one that was there. -/
structure Rewritten (scid : ShortChannelID) (amount : UInt64) (old new : TlvRecord) : Prop where
  type : new.type = old.type
  nextHop : old.type = 6 → new.value.length = 8 ∧ ofBigEndian new.value = scid.toNat
  amount : old.type = 2 → ofBigEndian new.value = amount.toNat ∧ new.value.head? ≠ some 0
  other : old.type ≠ 6 → old.type ≠ 2 → new.bytes = old.bytes

/-- The bytes that are forwarded against the payload of the request. -/
def Rewrites (scid : ShortChannelID) (amount : UInt64) (payload out : Bytes) : Prop :=
  ∃ inner records replaced, Carries payload inner ∧ IsStream inner records ∧
    IsStream out replaced ∧ List.Forall₂ (Rewritten scid amount) records replaced

end specification

variable {orders : MapOrders} {payload out : Bytes} {scid : ShortChannelID}
  {amountToForward : UInt64} {feeMsat : Option UInt64} {records : List TlvRecord}

@[simp] theorem type_replaceRecord (record : TlvRecord) :
    (replaceRecord scid amountToForward record).type = record.type := by
  unfold replaceRecord
  split_ifs <;> rfl

theorem rewritten_replaceRecord (record : TlvRecord) :
    Rewritten scid amountToForward record (replaceRecord scid amountToForward record) where
  type := type_replaceRecord record
  nextHop := by
    intro (nextHop : record.type = nextHopOnionType)
    rw [replaceRecord, if_pos nextHop]
    exact ⟨length_nextHopValue scid, ofBigEndian_toBigEndian ..⟩
  amount := by
    intro (amount : record.type = amtOnionType)
    have notNextHop : record.type ≠ nextHopOnionType := by
      rw [amount]
      decide
    rw [replaceRecord, if_neg notNextHop, if_pos amount]
    exact ⟨ofBigEndian_toBigEndian .., head?_toBigEndian_zero _⟩
  other := by
    intro (notNextHop : record.type ≠ nextHopOnionType) (notAmount : record.type ≠ amtOnionType)
    rw [replaceRecord, if_neg notNextHop, if_neg notAmount]

theorem increasing_replaceRecord (increasing : records.Pairwise (·.type < ·.type)) :
    (records.map (replaceRecord scid amountToForward)).Pairwise (·.type < ·.type) := by
  simpa [List.pairwise_map] using increasing

/-- Sorting undoes the orders in which the maps are ranged over. -/
theorem mapToRecords_replaceRecord (increasing : records.Pairwise (·.type < ·.type)) :
    mapToRecords orders ((orders.tlvMap records).map (replaceRecord scid amountToForward)) =
      records.map (replaceRecord scid amountToForward) := by
  refine eq_of_perm_of_increasing ?_ ?_ (increasing_replaceRecord increasing)
  · exact (orders.sortRecords.perm _).trans
      ((orders.uTlvMap_perm _).trans ((orders.tlvMap_perm records).map _))
  · refine (orders.sortRecords.sorted _).imp ?_
    intro earlier later notLess
    exact UInt64.not_lt.mp (of_decide_eq_false notLess)

theorem newStream_replaceRecord (increasing : records.Pairwise (·.type < ·.type)) :
    newStream (mapToRecords orders ((orders.tlvMap records).map
      (replaceRecord scid amountToForward))) =
        some (records.map (replaceRecord scid amountToForward)) := by
  rw [mapToRecords_replaceRecord increasing]
  exact if_pos (increasing_replaceRecord increasing)

/-- A payload is encoded exactly if its bytes are a stream, and only two values are
replaced. -/
theorem encodePayloadWithNextHop_eq_value :
    encodePayloadWithNextHop orders payload scid amountToForward feeMsat = .value out ↔
      ∃ inner records, Carries payload inner ∧ inner.length ≤ maxAlloc ∧ IsStream inner records ∧
        out = (records.map (replaceRecord scid amountToForward)).flatMap TlvRecord.bytes := by
  constructor
  · intro encoded
    cases readLength : readBigSize payload with
    | none => simp [encodePayloadWithNextHop, readLength] at encoded
    | some found =>
      obtain ⟨varInt, rest⟩ := found
      simp only [encodePayloadWithNextHop, readLength] at encoded
      split_ifs at encoded with huge short
      have size : (rest.take varInt.toNat).length = varInt.toNat :=
        List.length_take_of_le (Nat.not_lt.mp short)
      have room : (rest.take varInt.toNat).length ≤ maxAlloc :=
        size.le.trans (Nat.not_lt.mp huge)
      cases decoded : readStream maxAlloc (rest.take varInt.toNat) with
      | error fault => cases fault <;> simp [decoded] at encoded
      | ok records =>
        have stream := (readStream_eq_ok room).mp decoded
        simp only [decoded, newStream_replaceRecord stream.increasing, Outcome.value.injEq] at encoded
        refine ⟨rest.take varInt.toNat, records, ⟨⟨rest.drop varInt.toNat, ?_⟩, ?_⟩, room, stream,
          encoded.symm⟩
        · rw [size, UInt64.ofNat_toNat, List.take_append_drop]
          exact readBigSize_eq_some.mp readLength
        · rw [size]
          exact varInt.toNat_lt_size
  · rintro ⟨inner, records, ⟨⟨rest, rfl⟩, bounded⟩, fits, stream, rfl⟩
    have size : (UInt64.ofNat inner.length).toNat = inner.length :=
      UInt64.toNat_ofNat_of_lt' bounded
    simp [encodePayloadWithNextHop, size, Nat.not_lt.mpr fits, (readStream_eq_ok fits).mpr stream,
      newStream_replaceRecord stream.increasing]

theorem rewrites_replaceRecord {inner : Bytes} (carries : Carries payload inner)
    (stream : IsStream inner records) :
    Rewrites scid amountToForward payload
      ((records.map (replaceRecord scid amountToForward)).flatMap TlvRecord.bytes) := by
  refine ⟨inner, records, records.map (replaceRecord scid amountToForward), carries, stream,
    ⟨rfl, increasing_replaceRecord stream.increasing⟩, ?_⟩
  rw [List.forall₂_map_right_iff, List.forall₂_same]
  exact fun record _ => rewritten_replaceRecord record

/-- Exactly the payloads that carry a stream are encoded. The result is a stream again. It
has the types of the old one, the next hop and the amount it should have, and is the same in
everything else. -/
theorem encodePayloadWithNextHop_rewrites (orders : MapOrders) (payload : Bytes)
    (scid : ShortChannelID) (amountToForward : UInt64) (feeMsat : Option UInt64) :
    ((∃ out, encodePayloadWithNextHop orders payload scid amountToForward feeMsat = .value out) ↔
      Accepted payload) ∧
    ∀ out, encodePayloadWithNextHop orders payload scid amountToForward feeMsat = .value out →
      Rewrites scid amountToForward payload out := by
  refine ⟨?_, ?_⟩
  · constructor
    · rintro ⟨out, encoded⟩
      obtain ⟨inner, records, carries, fits, stream, _⟩ :=
        encodePayloadWithNextHop_eq_value.mp encoded
      exact ⟨inner, records, carries, fits, stream⟩
    · rintro ⟨inner, records, carries, fits, stream⟩
      exact ⟨_, encodePayloadWithNextHop_eq_value.mpr ⟨inner, records, carries, fits, stream, rfl⟩⟩
  · intro out encoded
    obtain ⟨inner, records, carries, _, stream, rfl⟩ := encodePayloadWithNextHop_eq_value.mp encoded
    exact rewrites_replaceRecord carries stream

section sample

def mergeRecords : SortSlice recordLess where
  sort records := records.mergeSort fun one two => !recordLess two one
  perm records := List.mergeSort_perm records _
  sorted records := by
    have ordered := @List.pairwise_mergeSort _ (fun one two => !recordLess two one) ?_ ?_ records
    · exact ordered.imp fun before => by simpa using before
    · intro one two three
      simpa [recordLess] using UInt64.le_trans
    · intro one two
      simpa [recordLess] using UInt64.le_total one.type two.type

/-- The first map is ranged over backwards. -/
def sampleOrders : MapOrders where
  tlvMap := List.reverse
  tlvMap_perm := List.reverse_perm
  uTlvMap records := records
  uTlvMap_perm := List.Perm.refl
  sortRecords := mergeRecords

/-- An amount, an expiry, a next hop and a custom record. -/
def sampleRecords : List TlvRecord :=
  [⟨2, [5], by decide⟩, ⟨4, [144], by decide⟩, ⟨6, [0, 0, 1, 0, 0, 1, 0, 0], by decide⟩,
    ⟨65537, [1, 2], by decide⟩]

def sampleInner : Bytes :=
  [2, 1, 5, 4, 1, 144, 6, 8, 0, 0, 1, 0, 0, 1, 0, 0, 0xfe, 0, 1, 0, 1, 2, 1, 2]

def sampleForwarded : Bytes :=
  [2, 4, 5, 215, 92, 128, 4, 1, 144, 6, 8, 1, 2, 3, 4, 5, 6, 7, 8, 0xfe, 0, 1, 0, 1, 2, 1, 2]

theorem encodePayloadWithNextHop_sample :
    encodePayloadWithNextHop sampleOrders (24 :: sampleInner) 0x102030405060708 98000000 none =
      .value sampleForwarded := by
  have carries : Carries (24 :: sampleInner) sampleInner := ⟨⟨[], by decide⟩, by decide⟩
  have stream : IsStream sampleInner sampleRecords := ⟨by decide, by decide⟩
  exact encodePayloadWithNextHop_eq_value.mpr
    ⟨sampleInner, sampleRecords, carries, by decide, stream, by decide⟩

theorem encodePayloadWithNextHop_rewrites_sample :
    Accepted (24 :: sampleInner) ∧
      encodePayloadWithNextHop sampleOrders (24 :: sampleInner) 0x102030405060708 98000000 none =
        .value sampleForwarded ∧
      Rewrites 0x102030405060708 98000000 (24 :: sampleInner) sampleForwarded := by
  obtain ⟨accepted, rewrites⟩ := encodePayloadWithNextHop_rewrites sampleOrders (24 :: sampleInner)
    0x102030405060708 98000000 none
  exact ⟨accepted.mp ⟨_, encodePayloadWithNextHop_sample⟩, encodePayloadWithNextHop_sample,
    rewrites _ encodePayloadWithNextHop_sample⟩

end sample

section interceptor

/-- A panic ends the process. For what can be answered it is not told apart from an error. -/
def encoded : Outcome Bytes → Option Bytes
  | .value out => some out
  | .error _ => none
  | .panic => none

/-- The interceptor with this encoding of payloads. -/
def clnHtlcInterceptor (orders : MapOrders) (chanIdString : OutPoint → String) :
    ClnHtlcInterceptor where
  encodePayloadWithNextHop payload scid amountToForward feeMsat :=
    encoded (encodePayloadWithNextHop orders payload scid amountToForward feeMsat)
  chanIdString

theorem encoded_eq_some {outcome : Outcome Bytes} :
    encoded outcome = some out ↔ outcome = .value out := by
  cases outcome <;> simp [encoded]

end interceptor

end Lspd.Cln
