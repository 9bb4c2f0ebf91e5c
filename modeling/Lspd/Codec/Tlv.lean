import Lspd.Codec.BigSize

/-! Streams of records, each a type, a length and that many bytes, in the order of their
types. -/

namespace Lspd.Codec

/-- A record, whose length can be written. -/
@[ext] structure TlvRecord where
  type : UInt64
  value : List UInt8
  bounded : value.length < UInt64.size
  deriving DecidableEq

namespace TlvRecord

def bytes (record : TlvRecord) : List UInt8 :=
  writeBigSize record.type ++ (writeBigSize (.ofNat record.value.length) ++ record.value)

/-- The record at the beginning of what comes after its type and length. -/
def cut (type length : UInt64) (tail : List UInt8) : TlvRecord where
  type
  value := tail.take length.toNat
  bounded := (List.length_take_le ..).trans_lt length.toNat_lt_size

end TlvRecord

/-- Why bytes are not read: they are no records, or a record says that it is longer than
any buffer. -/
inductive ReadError where
  | malformed
  | tooLarge
  deriving DecidableEq

/-- The record at the beginning. Its buffer, of at most `limit` bytes, is made before it is
known whether there are as many bytes. -/
def readRecord (limit : Nat) (bytes : List UInt8) :
    Except ReadError (TlvRecord × List UInt8) :=
  match readBigSize bytes with
  | none => .error .malformed
  | some (type, rest) =>
    match readBigSize rest with
    | none => .error .malformed
    | some (length, tail) =>
      if limit < length.toNat then .error .tooLarge
      else if length.toNat ≤ tail.length then
        .ok (.cut type length tail, tail.drop length.toNat)
      else .error .malformed

/-- The records up to the end, of which each has a higher type than the one before. -/
def readRecords (limit : Nat) :
    Nat → Option UInt64 → List UInt8 → Except ReadError (List TlvRecord)
  | _, _, [] => .ok []
  | 0, _, _ => .error .malformed
  | fuel + 1, last, bytes => do
    let (record, rest) ← readRecord limit bytes
    if last.all (· < record.type) then
      return record :: (← readRecords limit fuel (some record.type) rest)
    else .error .malformed

/-- Every record takes a byte, so that there is always enough fuel. -/
def readStream (limit : Nat) (bytes : List UInt8) : Except ReadError (List TlvRecord) :=
  readRecords limit bytes.length none bytes

/-- The bytes of records with increasing types. -/
structure IsStream (bytes : List UInt8) (records : List TlvRecord) : Prop where
  written : bytes = records.flatMap TlvRecord.bytes
  increasing : records.Pairwise (·.type < ·.type)

section reading

variable {limit : Nat} {bytes rest : List UInt8} {record : TlvRecord} {records : List TlvRecord}

theorem readRecord_eq_ok (room : bytes.length ≤ limit) :
    readRecord limit bytes = .ok (record, rest) ↔ bytes = record.bytes ++ rest := by
  constructor
  · intro read
    unfold readRecord at read
    split at read
    · cases read
    · rename_i type afterType readType
      split at read
      · cases read
      · rename_i length tail readLength
        split_ifs at read with large enough
        obtain ⟨rfl, rfl⟩ := Prod.mk.inj (Except.ok.inj read)
        obtain rfl := readBigSize_eq_some.mp readType
        obtain rfl := readBigSize_eq_some.mp readLength
        have size : (tail.take length.toNat).length = length.toNat := List.length_take_of_le enough
        simp [TlvRecord.bytes, TlvRecord.cut, size]
  · rintro rfl
    have fits : record.value.length ≤ limit := by
      simp only [TlvRecord.bytes, List.length_append] at room
      omega
    have size : (UInt64.ofNat record.value.length).toNat = record.value.length :=
      UInt64.toNat_ofNat_of_lt' record.bounded
    have whole : TlvRecord.cut record.type (.ofNat record.value.length) (record.value ++ rest) =
        record := by
      refine TlvRecord.ext rfl ?_
      dsimp only [TlvRecord.cut]
      rw [size, List.take_left]
    simp [readRecord, TlvRecord.bytes, size, whole, Nat.not_lt.mpr fits]

theorem TlvRecord.bytes_ne_nil (record : TlvRecord) : record.bytes ≠ [] :=
  List.append_ne_nil_of_left_ne_nil (writeBigSize_ne_nil _) _

theorem isStream_nil_iff : IsStream [] records ↔ records = [] := by
  constructor
  · rintro ⟨written, _⟩
    cases records with
    | nil => rfl
    | cons record later =>
      have empty := (List.append_eq_nil_iff.mp written.symm).1
      exact absurd empty record.bytes_ne_nil
  · rintro rfl
    exact ⟨rfl, .nil⟩

theorem isStream_cons_iff {later : List TlvRecord} :
    IsStream (record.bytes ++ rest) (record :: later) ↔
      IsStream rest later ∧ ∀ next ∈ later, record.type < next.type := by
  constructor
  · rintro ⟨written, increasing⟩
    obtain ⟨first, more⟩ := List.pairwise_cons.mp increasing
    exact ⟨⟨List.append_cancel_left written, more⟩, first⟩
  · rintro ⟨⟨rfl, more⟩, first⟩
    exact ⟨rfl, .cons first more⟩

/-- What one round of the loop can do. -/
theorem readRecords_succ {fuel : Nat} {last : Option UInt64} (room : bytes.length ≤ limit)
    (more : bytes ≠ []) :
    readRecords limit (fuel + 1) last bytes = .ok records ↔
      ∃ record rest later, bytes = record.bytes ++ rest ∧ last.all (· < record.type) = true ∧
        readRecords limit fuel (some record.type) rest = .ok later ∧ records = record :: later := by
  have unfolded : readRecords limit (fuel + 1) last bytes = (do
      let (record, rest) ← readRecord limit bytes
      if last.all (· < record.type) then
        return record :: (← readRecords limit fuel (some record.type) rest)
      else .error .malformed) := by
    cases bytes with
    | nil => exact absurd rfl more
    | cons byte tail => rfl
  rw [unfolded]
  constructor
  · intro read
    cases first : readRecord limit bytes with
    | error fault =>
      rw [first] at read
      cases read
    | ok found =>
      obtain ⟨record, rest⟩ := found
      rw [first] at read
      change (if _ then _ else _) = _ at read
      split_ifs at read with higher
      cases readLater : readRecords limit fuel (some record.type) rest with
      | error fault =>
        rw [readLater] at read
        cases read
      | ok later =>
        rw [readLater] at read
        exact ⟨record, rest, later, (readRecord_eq_ok room).mp first, higher, readLater,
          (Except.ok.inj read).symm⟩
  · rintro ⟨record, rest, later, written, higher, readLater, rfl⟩
    rw [(readRecord_eq_ok room).mpr written]
    change (if _ then _ else _) = _
    rw [if_pos higher, readLater]
    rfl

theorem readRecords_nil {fuel : Nat} {last : Option UInt64} :
    readRecords limit fuel last [] = .ok records ↔
      IsStream [] records ∧ ∀ record ∈ records, last.all (· < record.type) = true := by
  have read : readRecords limit fuel last [] = .ok [] := by cases fuel <;> rfl
  rw [read, isStream_nil_iff]
  constructor
  · rintro ⟨⟩
    simp
  · rintro ⟨rfl, _⟩
    rfl

theorem all_lt_of_lt {last : Option UInt64} {one two : UInt64}
    (first : last.all (· < one) = true) (second : one < two) : last.all (· < two) = true := by
  cases last with
  | none => rfl
  | some type =>
    simp only [Option.all_some, decide_eq_true_eq] at first ⊢
    exact UInt64.lt_trans first second

theorem readRecords_eq_ok {fuel : Nat} {last : Option UInt64} (room : bytes.length ≤ limit)
    (enough : bytes.length ≤ fuel) :
    readRecords limit fuel last bytes = .ok records ↔
      IsStream bytes records ∧ ∀ record ∈ records, last.all (· < record.type) = true := by
  induction fuel generalizing last bytes records with
  | zero =>
    obtain rfl := List.length_eq_zero_iff.mp (Nat.le_zero.mp enough)
    exact readRecords_nil
  | succ fuel ih =>
    by_cases empty : bytes = []
    · subst empty
      exact readRecords_nil
    · have shorter {record : TlvRecord} {rest : List UInt8} (written : bytes = record.bytes ++ rest) :
          rest.length ≤ limit ∧ rest.length ≤ fuel := by
        have positive := List.length_pos_of_ne_nil record.bytes_ne_nil
        rw [written, List.length_append] at enough room
        omega
      rw [readRecords_succ room empty]
      constructor
      · rintro ⟨record, rest, later, written, higher, readLater, rfl⟩
        obtain ⟨stream, above⟩ := (ih (shorter written).1 (shorter written).2).mp readLater
        have above : ∀ next ∈ later, record.type < next.type := by simpa using above
        rw [written, isStream_cons_iff]
        refine ⟨⟨stream, above⟩, List.forall_mem_cons.mpr ⟨higher, ?_⟩⟩
        intro next member
        exact all_lt_of_lt higher (above next member)
      · rintro ⟨stream, higher⟩
        cases records with
        | nil => exact absurd stream.written empty
        | cons record later =>
          have written : bytes = record.bytes ++ later.flatMap TlvRecord.bytes := stream.written
          rw [written] at stream
          obtain ⟨streamLater, above⟩ := isStream_cons_iff.mp stream
          refine ⟨record, _, later, written, (List.forall_mem_cons.mp higher).1, ?_, rfl⟩
          exact (ih (shorter written).1 (shorter written).2).mpr ⟨streamLater, by simpa using above⟩

theorem readStream_eq_ok (room : bytes.length ≤ limit) :
    readStream limit bytes = .ok records ↔ IsStream bytes records := by
  simp [readStream, readRecords_eq_ok room (Nat.le_refl _)]

end reading

/-- Records with increasing types have one order only. -/
theorem eq_of_perm_of_increasing {sorted records : List TlvRecord} (perm : sorted.Perm records)
    (ordered : sorted.Pairwise (·.type ≤ ·.type)) (increasing : records.Pairwise (·.type < ·.type)) :
    sorted = records := by
  refine List.Perm.eq_of_pairwise ?_ ordered (increasing.imp UInt64.le_of_lt) perm
  intro one two memberOne memberTwo below above
  have same : one.type = two.type := UInt64.le_antisymm below above
  have distinct : (records.map TlvRecord.type).Nodup :=
    List.pairwise_map.mpr (increasing.imp UInt64.ne_of_lt)
  exact List.inj_on_of_nodup_map distinct (perm.mem_iff.mp memberOne) memberTwo same

end Lspd.Codec
