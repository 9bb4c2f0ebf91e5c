import Lspd.Postgres.Payments
import Mathlib.Data.List.Induction

/-! What `PaymentInfo` reads after any sequence of registrations and fundings: the
first registration of a hash, and the funding that was set for it last. -/

namespace Lspd.Postgres

open Lspd.Common Lspd.Lightning Lspd.Store

/-- The writing calls of the store. -/
inductive StoreCall where
  | register (registration : Registration)
  | fund (paymentHash : Bytes) (channelPoint : OutPoint)

/-- The table after calls that all succeeded, beginning with an empty one. -/
inductive After : List StoreCall → Payments → Prop where
  | start : After [] .empty
  | register (registration : Registration) (after : After calls payments)
      (registers : registerPayment payments registration = some later) :
      After (calls ++ [.register registration]) later
  | fund (paymentHash : Bytes) (channelPoint : OutPoint) (after : After calls payments)
      (fits : fitsOutnum channelPoint) :
      After (calls ++ [.fund paymentHash channelPoint])
        (setFundingTx payments paymentHash channelPoint)

/-- One of the calls registers the hash. -/
def Registered (calls : List StoreCall) (paymentHash : Bytes) : Prop :=
  ∃ registration, .register registration ∈ calls ∧ registration.paymentHash = some paymentHash

/-- Different registered hashes and their probing hashes are different. -/
def Distinct (sha256 : Bytes → Bytes) (calls : List StoreCall) : Prop :=
  ∀ one two, Registered calls one → Registered calls two → one ≠ two →
    probingHash sha256 one ≠ two ∧ probingHash sha256 one ≠ probingHash sha256 two

def StoreCall.funds? (paymentHash : Bytes) : StoreCall → Option OutPoint
  | .register _ => none
  | .fund other channelPoint => if other = paymentHash then some channelPoint else none

/-- The outpoint of the last call that funds the hash. -/
def lastFunding (paymentHash : Bytes) (calls : List StoreCall) : Option OutPoint :=
  (calls.filterMap (StoreCall.funds? paymentHash)).getLast?

/-- What is to be read of a registration whose channel is this one. -/
def Registration.info (registration : Registration) (channelPoint : Option OutPoint) :
    PaymentInfo :=
  { token := registration.token
    params := registration.params
    paymentHash := registration.paymentHash.getD []
    paymentSecret := registration.paymentSecret
    destination := registration.destination.getD []
    incomingAmountMsat := registration.incomingAmountMsat
    outgoingAmountMsat := registration.outgoingAmountMsat
    channelPoint
    tag := if registration.tag = "" then none else some registration.tag }

/-- What one call does to the row of a hash. -/
def StoreCall.track (paymentHash : Bytes) (row : Option PaymentRow) : StoreCall → Option PaymentRow
  | .register registration => row.or (registration.row.filter (·.paymentHash = paymentHash))
  | .fund other channelPoint => if other = paymentHash then row.map (·.fund channelPoint) else row

section track

variable {calls before later : List StoreCall} {payments : Payments} {paymentHash : Bytes}
  {registration : Registration} {row : PaymentRow}

/-- The row of a hash depends on the calls for it only. -/
theorem find?_after (after : After calls payments) :
    payments.find? paymentHash = calls.foldl (StoreCall.track paymentHash) none := by
  induction after with
  | start => rfl
  | register registration _ registers ih =>
    obtain ⟨new, made, rfl⟩ := Option.map_eq_some_iff.mp registers
    rw [List.foldl_append, List.foldl_cons, List.foldl_nil, StoreCall.track, ← ih, made,
      Table.find?_insertNew, Option.filter_some]
    simp
  | fund other channelPoint _ _ ih =>
    rw [List.foldl_append, List.foldl_cons, List.foldl_nil, StoreCall.track, ← ih,
      find?_setFundingTx]
    by_cases same : paymentHash = other
    · simp [same]
    · simp [same, Ne.symm same]

theorem Registration.row_paymentHash (made : registration.row = some row) :
    registration.paymentHash = some row.paymentHash ∧ registration.paymentSecret.isSome := by
  unfold Registration.row at made
  split at made
  · rename_i params destination hash secret
    cases made
    exact ⟨hash, by simp [secret]⟩
  · cases made

theorem track_unregistered (unregistered : ¬ Registered before paymentHash) :
    before.foldl (StoreCall.track paymentHash) none = none := by
  induction before using List.reverseRecOn with
  | nil => rfl
  | append_singleton earlier last ih =>
    have untracked := ih fun ⟨registration, member, same⟩ =>
      unregistered ⟨registration, List.mem_append_left _ member, same⟩
    rw [List.foldl_append, untracked]
    cases last with
    | fund other channelPoint => simp [StoreCall.track]
    | register registration =>
      simp only [List.foldl_cons, List.foldl_nil, StoreCall.track, Option.none_or,
        Option.filter_eq_none_iff, decide_eq_true_eq]
      intro row made same
      refine unregistered ⟨registration, by simp, ?_⟩
      rw [(Registration.row_paymentHash made).1, same]

theorem lastFunding_snoc (call : StoreCall) : lastFunding paymentHash (calls ++ [call]) =
    (call.funds? paymentHash).or (lastFunding paymentHash calls) := by
  rw [lastFunding, List.filterMap_append, List.getLast?_append, lastFunding]
  cases found : call.funds? paymentHash <;> simp [found]

/-- From its registration on, a row changes with its fundings only. -/
theorem track_registered : later.foldl (StoreCall.track paymentHash) (some row) =
    some ((lastFunding paymentHash later).elim row (row.fund ·)) := by
  induction later using List.reverseRecOn with
  | nil => rfl
  | append_singleton earlier last ih =>
    rw [List.foldl_append, ih, lastFunding_snoc]
    cases last with
    | register registration => rfl
    | fund other channelPoint =>
      rw [List.foldl_cons, List.foldl_nil, StoreCall.track, StoreCall.funds?]
      split
      · cases lastFunding paymentHash earlier <;> rfl
      · rfl

/-- A row without a channel is read as its registration, with the channel it got. -/
theorem Registration.info_of_row (made : registration.row = some row)
    (channelPoint : Option OutPoint) :
    (channelPoint.elim row (row.fund ·)).info = .value (registration.info channelPoint) := by
  unfold Registration.row at made
  split at made
  · rename_i params destination hash secret
    cases made
    cases channelPoint with
    | none => simp [PaymentRow.info, Registration.info, PaymentRow.channelPoint, *]
    | some channelPoint =>
      simp [PaymentRow.info, Registration.info, PaymentRow.fund, PaymentRow.channelPoint, *]
  · cases made

/-- What is read of a registration is never taken for a missing payment. -/
theorem Registration.info_ne_missing (made : registration.row = some row)
    (channelPoint : Option OutPoint) : registration.info channelPoint ≠ .missing := by
  intro missing
  have secret := (Registration.row_paymentHash made).2
  have absent : registration.paymentSecret = none := congrArg PaymentInfo.paymentSecret missing
  simp [absent] at secret

/-- Every registration among calls that succeeded made a row. -/
theorem After.exists_row (after : After calls payments) (member : .register registration ∈ calls) :
    ∃ row, registration.row = some row := by
  induction after with
  | start => cases member
  | register registration _ registers ih =>
    rcases List.mem_append.mp member with earlier | last
    · exact ih earlier
    · cases List.mem_singleton.mp last
      obtain ⟨new, made, _⟩ := Option.map_eq_some_iff.mp registers
      exact ⟨new, made⟩
  | fund other channelPoint _ _ ih =>
    rcases List.mem_append.mp member with earlier | last
    · exact ih earlier
    · cases List.mem_singleton.mp last

/-- The row of a hash is the one of its first registration with its last funding. -/
theorem find?_registered (after : After calls payments)
    (split : calls = before ++ .register registration :: later)
    (hash : registration.paymentHash = some paymentHash)
    (first : ¬ Registered before paymentHash) :
    ∃ row, payments.find? paymentHash = some row ∧
      row.info = .value (registration.info (lastFunding paymentHash later)) := by
  obtain ⟨row, made⟩ := after.exists_row (split ▸ List.mem_append_right _ (.head _))
  refine ⟨_, ?_, Registration.info_of_row made _⟩
  have own : row.paymentHash = paymentHash := by
    rw [(Registration.row_paymentHash made).1] at hash
    exact Option.some.inj hash
  rw [find?_after after, split, List.foldl_append, track_unregistered first, List.foldl_cons,
    StoreCall.track, made, Option.filter_some_pos (by simpa using own), Option.none_or]
  exact track_registered

/-- A registered hash has a first registration. -/
theorem Registered.first (registered : Registered calls paymentHash) :
    ∃ before registration later, calls = before ++ .register registration :: later ∧
      registration.paymentHash = some paymentHash ∧ ¬ Registered before paymentHash := by
  induction calls using List.reverseRecOn with
  | nil =>
    obtain ⟨_, member, _⟩ := registered
    cases member
  | append_singleton earlier last ih =>
    by_cases known : Registered earlier paymentHash
    · obtain ⟨before, registration, later, rfl, hash, first⟩ := ih known
      exact ⟨before, registration, later ++ [last], by simp, hash, first⟩
    · obtain ⟨registration, member, hash⟩ := registered
      rcases List.mem_append.mp member with old | new
      · exact absurd ⟨registration, old, hash⟩ known
      · cases List.mem_singleton.mp new
        exact ⟨earlier, registration, [], rfl, hash, known⟩

/-- Only registered hashes have a row. -/
theorem registered_of_mem (after : After calls payments) (member : row ∈ payments.rows) :
    Registered calls row.paymentHash := by
  by_contra unregistered
  have found := Table.find?_eq_some_iff.mpr ⟨member, rfl⟩
  rw [find?_after after, track_unregistered unregistered] at found
  cases found

variable {sha256 : Bytes → Bytes} {wanted : Bytes}

/-- Where the hashes are distinct, a matching row is the one of the matching registration. -/
theorem info_of_matches (after : After calls payments) (distinct : Distinct sha256 calls)
    (member : row ∈ payments.rows) (found : row.Matches sha256 wanted)
    (split : calls = before ++ .register registration :: later)
    (hash : registration.paymentHash = some paymentHash)
    (first : ¬ Registered before paymentHash)
    (sought : wanted = paymentHash ∨ wanted = probingHash sha256 paymentHash) :
    row.info = .value (registration.info (lastFunding paymentHash later)) := by
  obtain ⟨known, located, info⟩ := find?_registered after split hash first
  have rowRegistered := registered_of_mem after member
  have hashRegistered : Registered calls paymentHash :=
    ⟨registration, split ▸ List.mem_append_right _ (.head _), hash⟩
  have same : row.paymentHash = paymentHash := by
    by_contra different
    have one := distinct _ _ rowRegistered hashRegistered different
    have two := distinct _ _ hashRegistered rowRegistered (Ne.symm different)
    rcases sought with rfl | rfl
    · rcases found with equal | probes
      · exact different equal
      · exact one.1 probes
    · rcases found with equal | probes
      · exact two.1 equal.symm
      · exact one.2 probes
  rw [← same, Table.find?_eq_some_iff.mpr ⟨member, rfl⟩] at located
  rw [Option.some.inj located]
  exact info

/-- Where no row matches, no registered hash does. -/
theorem unmatched_of_absent (after : After calls payments)
    (absent : ∀ row ∈ payments.rows, ¬ row.Matches sha256 wanted)
    (registered : Registered calls paymentHash) :
    wanted ≠ paymentHash ∧ wanted ≠ probingHash sha256 paymentHash := by
  obtain ⟨before, registration, later, split, hash, first⟩ := registered.first
  obtain ⟨row, located, _⟩ := find?_registered after split hash first
  obtain ⟨member, rfl⟩ := Table.find?_eq_some_iff.mp located
  have unequal := absent row member
  rw [PaymentRow.Matches, not_or] at unequal
  exact ⟨Ne.symm unequal.1, Ne.symm unequal.2⟩

/-- After any successful calls on an empty store, `PaymentInfo` finds nothing
exactly when neither the hash nor the hash it probes was registered; otherwise
it reads the first registration of that hash, with the outpoint of the last
funding that came after it. -/
theorem paymentInfo_first_registration (after : After calls payments)
    (distinct : Distinct sha256 calls) {outcome : Outcome PaymentInfo}
    (reply : PaymentInfoReply sha256 payments wanted outcome)
    (answered : ∀ message, outcome ≠ .error message) :
    ∃ info, outcome = .value info ∧
      (info = .missing ↔ ∀ paymentHash, Registered calls paymentHash →
        wanted ≠ paymentHash ∧ wanted ≠ probingHash sha256 paymentHash) ∧
      ∀ before registration later paymentHash,
        calls = before ++ .register registration :: later →
        registration.paymentHash = some paymentHash → ¬ Registered before paymentHash →
        (wanted = paymentHash ∨ wanted = probingHash sha256 paymentHash) →
        info = registration.info (lastFunding paymentHash later) := by
  cases reply with
  | failed message => exact absurd rfl (answered message)
  | missing absent =>
    refine ⟨.missing, rfl, iff_of_true rfl fun _ => unmatched_of_absent after absent, ?_⟩
    intro before registration later paymentHash split hash _ sought
    have registered : Registered calls paymentHash :=
      ⟨registration, split ▸ List.mem_append_right _ (.head _), hash⟩
    have unmatched := unmatched_of_absent after absent registered
    rcases sought with same | probes
    · exact absurd same unmatched.1
    · exact absurd probes unmatched.2
  | @found row member found =>
    have registered := registered_of_mem after member
    have sought : wanted = row.paymentHash ∨ wanted = probingHash sha256 row.paymentHash :=
      found.imp Eq.symm Eq.symm
    obtain ⟨before, registration, later, split, hash, first⟩ := registered.first
    have info := info_of_matches after distinct member found split hash first sought
    refine ⟨_, info, ?_, ?_⟩
    · apply iff_of_false
      · obtain ⟨row, made⟩ := after.exists_row (split ▸ List.mem_append_right _ (.head _))
        exact Registration.info_ne_missing made _
      · intro unmatched
        rcases sought with same | probes
        · exact (unmatched _ registered).1 same
        · exact (unmatched _ registered).2 probes
    · intro before registration later paymentHash split hash first sought
      have other := info_of_matches after distinct member found split hash first sought
      exact Outcome.value.inj (info.symm.trans other)

end track

section sample

def registeredHash : Bytes := List.replicate 32 1

/-- SHA-256 as far as it is needed here: of `probing-01:` and `registeredHash`. -/
def probingSha256 (_ : Bytes) : Bytes :=
  [1, 112, 149, 104, 66, 212, 255, 219, 200, 255, 138, 222, 252, 11, 91, 28,
    238, 114, 228, 90, 151, 15, 218, 15, 122, 199, 15, 170, 76, 75, 138, 182]

/-- A registration of the hash with these amounts. -/
def registrationOf (incomingAmountMsat outgoingAmountMsat : Int64) : Registration :=
  { token := "token"
    params := some
      { minFeeMsat := 2000000, proportional := 4000, validUntil := "2023-01-01T00:00:00.000Z"
        minLifetime := 4320, maxClientToSelfDelay := 432, promise := "" }
    destination := some (List.replicate 33 3)
    paymentHash := some registeredHash
    paymentSecret := some (List.replicate 32 2)
    incomingAmountMsat, outgoingAmountMsat
    tag := "" }

def fundingOf (index : UInt32) : OutPoint := ⟨⟨List.replicate 32 8, List.length_replicate⟩, index⟩

/-- Two registrations of one hash, each with a funding after it. -/
def registeredTwice : List StoreCall :=
  [.register (registrationOf 100000000 98000000), .fund registeredHash (fundingOf 0),
    .register (registrationOf 500 400), .fund registeredHash (fundingOf 1)]

theorem registeredTwice_distinct : Distinct probingSha256 registeredTwice := by
  have only (paymentHash : Bytes) (registered : Registered registeredTwice paymentHash) :
      paymentHash = registeredHash := by
    obtain ⟨registration, member, hash⟩ := registered
    simp only [registeredTwice, List.mem_cons, StoreCall.register.injEq, reduceCtorEq,
      List.not_mem_nil, or_false, false_or] at member
    rcases member with rfl | rfl
    · exact (Option.some.inj hash).symm
    · exact (Option.some.inj hash).symm
  intro one two first second different
  exact absurd ((only one first).trans (only two second).symm) different

/-- The amounts of the first registration and the second funding are read, by the
hash and by its probing hash. -/
theorem paymentInfo_first_registration_sample :
    ∃ payments, After registeredTwice payments ∧
      paymentInfo probingSha256 payments registeredHash =
        .value ((registrationOf 100000000 98000000).info (some (fundingOf 1))) ∧
      paymentInfo probingSha256 payments (probingHash probingSha256 registeredHash) =
        .value ((registrationOf 100000000 98000000).info (some (fundingOf 1))) := by
  have after : After registeredTwice _ :=
    .fund registeredHash (fundingOf 1) (.register (registrationOf 500 400)
      (.fund registeredHash (fundingOf 0)
        (.register (registrationOf 100000000 98000000) .start rfl) rfl) rfl) rfl
  have unregistered : ¬ Registered [] registeredHash := by
    rintro ⟨_, ⟨⟩, _⟩
  refine ⟨_, after, ?_, ?_⟩
  · obtain ⟨info, value, _, read⟩ := paymentInfo_first_registration after registeredTwice_distinct
      (paymentInfo_reply probingSha256 _ registeredHash) (by rintro message ⟨⟩)
    rw [value, read [] _ _ registeredHash rfl rfl unregistered (.inl rfl)]
    rfl
  · obtain ⟨info, value, _, read⟩ := paymentInfo_first_registration after registeredTwice_distinct
      (paymentInfo_reply probingSha256 _ (probingHash probingSha256 registeredHash))
      (by rintro message ⟨⟩)
    rw [value, read [] _ _ registeredHash rfl rfl unregistered (.inr rfl)]
    rfl

/-- A funding that was set before the registration is not read. -/
theorem early_funding_lost :
    ∃ payments, After [.fund registeredHash (fundingOf 0),
        .register (registrationOf 100000000 98000000)] payments ∧
      paymentInfo probingSha256 payments registeredHash =
        .value ((registrationOf 100000000 98000000).info none) ∧
      ¬ PaymentInfoReply probingSha256 payments registeredHash
        (.value ((registrationOf 100000000 98000000).info (some (fundingOf 0)))) := by
  have after : After [.fund registeredHash (fundingOf 0),
      .register (registrationOf 100000000 98000000)] _ :=
    .register (registrationOf 100000000 98000000) (.fund registeredHash (fundingOf 0) .start rfl) rfl
  refine ⟨_, after, rfl, ?_⟩
  intro reply
  obtain ⟨row, member, _, info⟩ := reply.registered rfl
  cases List.mem_singleton.mp member
  cases info

end sample

end Lspd.Postgres
