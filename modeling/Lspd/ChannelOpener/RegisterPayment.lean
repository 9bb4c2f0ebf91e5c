import Lspd.ChannelOpener.Amounts
import Lspd.Interceptor.Consistency

/-! The rpc that registers payments, from the encrypted blob to the stored row,
and what its check of the amounts is worth to `Intercept`. -/

namespace Lspd.ChannelOpener

open Lspd.Common Lspd.Interceptor Lspd.Lightning Lspd.Postgres Lspd.Process Lspd.Store

/-- `lspdrpc.OpeningFeeParams`. -/
structure RpcOpeningFeeParams where
  minMsat : UInt64
  proportional : UInt32
  validUntil : String
  maxIdleTime : UInt32
  maxClientToSelfDelay : UInt32
  promise : String

def RpcOpeningFeeParams.toCommon (params : RpcOpeningFeeParams) : OpeningFeeParams :=
  { minFeeMsat := params.minMsat
    proportional := params.proportional
    validUntil := params.validUntil
    minLifetime := params.maxIdleTime
    maxClientToSelfDelay := params.maxClientToSelfDelay
    promise := params.promise }

/-- A message as `proto.Unmarshal` fills it in; an empty bytes field is nil. -/
structure PaymentInformation where
  paymentHash : Option Bytes
  paymentSecret : Option Bytes
  destination : Option Bytes
  incomingAmountMsat : Int64
  outgoingAmountMsat : Int64
  tag : String
  openingFeeParams : Option RpcOpeningFeeParams

/-- The node a caller is authorized for, with the code of other libraries the
rpc uses: decryption, message decoding, the json check and the signature check
of a promise. -/
structure ChannelOpenerServer where
  getNode : Except String String
  config : NodeConfig
  time : TimeTexts
  eciesDecrypt : Bytes → Except String Bytes
  btcecDecrypt : Bytes → Except String Bytes
  unmarshal : Bytes → Except String PaymentInformation
  validJson : String → Bool
  verifyPromise : OpeningFeeParams → Bool

/-- All arithmetic is that of `int64`. -/
def checkPayment (params : RpcOpeningFeeParams) (incomingAmountMsat outgoingAmountMsat : Int64) :
    Except String Unit :=
  let fees := incomingAmountMsat * params.proportional.toUInt64.toInt64 / 1000000 / 1000 * 1000
  let fees := if fees < params.minMsat.toInt64 then params.minMsat.toInt64 else fees
  if incomingAmountMsat - outgoingAmountMsat < fees then .error "not enough fees" else .ok ()

namespace ChannelOpenerServer

variable (s : ChannelOpenerServer)

def validateOpeningFeeParams (now : Time) (params : OpeningFeeParams) : Bool :=
  s.verifyPromise params &&
    match s.time.parse params.validUntil with
    | none => false
    | some validUntil => ¬ validUntil < now

def decrypt (blob : Bytes) : Except String Bytes :=
  match s.eciesDecrypt blob with
  | .ok data => .ok data
  | .error _ =>
    (s.btcecDecrypt blob).mapError fun message =>
      s!"btcec.Decrypt({encodeToString blob}) error: {message}"

/-- The parameters a client sent, if they are valid, or the default ones. -/
def openingFeeParams (now : Time) : Option RpcOpeningFeeParams → Except String RpcOpeningFeeParams
  | some params =>
    if s.validateOpeningFeeParams now params.toCommon then .ok params
    else .error "invalid opening_fee_params"
  | none =>
    let params := s.config.defaultParams s.time now
    .ok { minMsat := params.minFeeMsat
          proportional := params.proportional
          validUntil := params.validUntil
          maxIdleTime := params.minLifetime
          maxClientToSelfDelay := params.maxClientToSelfDelay
          promise := params.promise }

/-- Everything before the store is asked: the registration that is to be stored. -/
def registration (now : Time) (blob : Bytes) : Except String Registration := do
  let token ← s.getNode
  let data ← s.decrypt blob
  let pi ← (s.unmarshal data).mapError fun message =>
    s!"proto.Unmarshal({encodeToString data}) error: {message}"
  if 1000 < pi.tag.utf8ByteSize then throw "tag too long"
  if pi.tag.utf8ByteSize ≠ 0 ∧ ¬ s.validJson pi.tag then throw "tag is not a valid json object"
  let params ← s.openingFeeParams now pi.openingFeeParams
  (checkPayment params pi.incomingAmountMsat pi.outgoingAmountMsat).mapError fun message =>
    s!"checkPayment({pi.incomingAmountMsat}, {pi.outgoingAmountMsat}) error: {message}"
  return { token
           params := some params.toCommon
           destination := pi.destination
           paymentHash := pi.paymentHash
           paymentSecret := pi.paymentSecret
           incomingAmountMsat := pi.incomingAmountMsat
           outgoingAmountMsat := pi.outgoingAmountMsat
           tag := pi.tag }

/-- `RegisterPayment` over a store that answers. -/
def registerPayment (now : Time) (payments : Payments) (blob : Bytes) : Except String Payments := do
  let registration ← s.registration now blob
  match Postgres.registerPayment payments registration with
  | some after => return after
  | none => throw "RegisterPayment() error"

end ChannelOpenerServer

section stored

variable {s : ChannelOpenerServer} {now : Time} {blob data hash : Bytes} {pi : PaymentInformation}
  {payments after : Payments}

/-- A sequence succeeds only if its first part does. -/
theorem eq_ok_of_bind {First Second : Type} {first : Except String First}
    {rest : First → Except String Second} {result : Second}
    (accepted : (first >>= rest) = .ok result) :
    ∃ value, first = .ok value ∧ rest value = .ok result := by
  cases first with
  | error message => cases accepted
  | ok value => exact ⟨value, rfl, accepted⟩

/-- An accepted blob becomes a registration with the client's hash and amounts. -/
theorem registration_of_accepted {registration : Registration}
    (decrypted : s.decrypt blob = .ok data) (decoded : s.unmarshal data = .ok pi)
    (accepted : s.registration now blob = .ok registration) :
    registration.paymentHash = pi.paymentHash ∧
      registration.incomingAmountMsat = pi.incomingAmountMsat ∧
      registration.outgoingAmountMsat = pi.outgoingAmountMsat := by
  unfold ChannelOpenerServer.registration at accepted
  obtain ⟨token, _, accepted⟩ := eq_ok_of_bind accepted
  obtain ⟨plain, same, accepted⟩ := eq_ok_of_bind accepted
  obtain rfl : data = plain := Except.ok.inj (decrypted.symm.trans same)
  obtain ⟨message, same, accepted⟩ := eq_ok_of_bind accepted
  rw [decoded] at same
  obtain rfl : pi = message := Except.ok.inj same
  -- the two checks of the tag
  dsimp only at accepted
  split at accepted
  · cases accepted
  · split at accepted
    · cases accepted
    · obtain ⟨params, _, accepted⟩ := eq_ok_of_bind accepted
      obtain ⟨_, _, accepted⟩ := eq_ok_of_bind accepted
      cases accepted
      exact ⟨rfl, rfl, rfl⟩

theorem registration_of_registerPayment (accepted : s.registerPayment now payments blob = .ok after) :
    ∃ registration, s.registration now blob = .ok registration ∧
      Postgres.registerPayment payments registration = some after := by
  obtain ⟨registration, made, accepted⟩ := eq_ok_of_bind accepted
  refine ⟨registration, made, ?_⟩
  cases stored : Postgres.registerPayment payments registration with
  | none =>
    rw [stored] at accepted
    cases accepted
  | some table =>
    rw [stored] at accepted
    rw [Except.ok.inj accepted]

/-- The row a new hash gets; it can be read back. -/
theorem row_of_stored (decrypted : s.decrypt blob = .ok data) (decoded : s.unmarshal data = .ok pi)
    (hashed : pi.paymentHash = some hash) (vacant : ∀ row ∈ payments.rows, row.paymentHash ≠ hash)
    (accepted : s.registerPayment now payments blob = .ok after) :
    ∃ row ∈ after.rows, row.paymentHash = hash ∧
      row.incomingAmountMsat = pi.incomingAmountMsat ∧
      row.outgoingAmountMsat = pi.outgoingAmountMsat ∧
      ∃ info, row.info = .value info ∧ info.paymentSecret.isSome := by
  obtain ⟨registration, made, stored⟩ := registration_of_registerPayment accepted
  obtain ⟨hash_eq, incoming, outgoing⟩ := registration_of_accepted decrypted decoded made
  obtain ⟨row, shape, rfl⟩ := Option.map_eq_some_iff.mp stored
  unfold Registration.row at shape
  split at shape
  · rename_i params destination paymentHash paymentSecret _ _ same _
    cases shape
    obtain rfl : paymentHash = hash := Option.some.inj (same.symm.trans (hash_eq.trans hashed))
    exact ⟨_, Table.mem_insertNew vacant, rfl, incoming, outgoing, ⟨_, rfl, rfl⟩⟩
  · cases shape

variable {sha256 : Bytes → Bytes} {i : Interceptor} {world : World}

/-- Every execution that is answered from the row computes with its amounts. -/
theorem amounts_of_row {row : PaymentRow} {group : Calls} {call : Call} {info : PaymentInfo}
    (stored : row ∈ world.payments.rows) (reachable : (service sha256 i).Reachable world group)
    (member : call ∈ group.executions) (read : info? call.history = some info)
    (registered : info.paymentSecret.isSome) (same : info.paymentHash = row.paymentHash) :
    info.incomingAmountMsat = row.incomingAmountMsat ∧
      info.outgoingAmountMsat = row.outgoingAmountMsat := by
  obtain ⟨old, found⟩ := (consistent_of_reachable reachable).reads call member info read registered
  obtain ⟨now, alive, grows⟩ := found.lives
  obtain ⟨later, there, grown⟩ := grow_of_reachable reachable row stored
  obtain ⟨hash_eq, _, _, incoming, outgoing, _⟩ := PaymentRow.info_fields found.info_eq
  obtain rfl : now = later := Table.eq_of_key_eq alive there (by
    rw [grows.paymentHash, grown.paymentHash, ← hash_eq, same])
  constructor
  · rw [incoming, ← grows.column PaymentRow.incomingAmountMsat fun _ => rfl,
      grown.column PaymentRow.incomingAmountMsat fun _ => rfl]
  · rw [outgoing, ← grows.column PaymentRow.outgoingAmountMsat fun _ => rfl,
      grown.column PaymentRow.outgoingAmountMsat fun _ => rfl]

/-- A run that consists of reading a stored row for one htlc. -/
theorem exists_call_of_row {row : PaymentRow} {info : PaymentInfo}
    (stored : row ∈ world.payments.rows) (same : row.info = .value info) (req : InterceptRequest)
    (own : row.paymentHash = req.paymentHash) :
    ∃ group : Calls, (service sha256 i).Reachable world group ∧
      ⟨req, [⟨.paymentInfo req.paymentHash, .value info⟩]⟩ ∈ group.executions := by
  have leads : (service sha256 i).Step (Service.idle world)
      ⟨world, [] ++ ⟨req, [], [], i.intercept req⟩ :: [], []⟩ := .lead req (by simp)
  have reply : PaymentInfoReply sha256 world.payments req.paymentHash (.value info) :=
    same ▸ .found stored (.inl own)
  exact ⟨_, (Relation.ReflTransGen.single leads).tail (.call (.call (.value info)) ⟨rfl, reply⟩),
    by simp [Group.executions, Group.finished, Group.running, Flight.execution]⟩

/-- The check of the amounts protects the computation in `Intercept`, for every
later htlc of the payment, exactly when the amounts are sound. -/
theorem stored_amounts_iff {table : Payments} (decrypted : s.decrypt blob = .ok data)
    (decoded : s.unmarshal data = .ok pi) (hashed : pi.paymentHash = some hash)
    (vacant : ∀ row ∈ table.rows, row.paymentHash ≠ hash)
    (accepted : s.registerPayment now table blob = .ok world.payments) :
    (∀ group, (service sha256 i).Reachable world group → ∀ call ∈ group.executions,
      ∀ info, info? call.history = some info → info.paymentSecret.isSome →
        info.paymentHash = hash → call.leader.outgoingAmountMsat.toNat < 2 ^ 63 →
          Computes info.outgoingAmountMsat call.leader.outgoingAmountMsat info.incomingAmountMsat) ↔
      SoundAmounts pi.incomingAmountMsat pi.outgoingAmountMsat := by
  obtain ⟨row, stored, rfl, incoming, outgoing, info, same, registered⟩ :=
    row_of_stored decrypted decoded hashed vacant accepted
  rw [← incoming, ← outgoing, ← sound_iff_computes]
  constructor
  · intro protected_ part small
    obtain ⟨hash_eq, _, _, in_eq, out_eq, _⟩ := PaymentRow.info_fields same
    let req : InterceptRequest :=
      { identifier := "", scid := 0, paymentHash := row.paymentHash, incomingAmountMsat := part,
        outgoingAmountMsat := part, incomingExpiry := 0, outgoingExpiry := 0 }
    obtain ⟨group, reachable, member⟩ := exists_call_of_row stored same req rfl
    have computes := protected_ group reachable _ member info rfl registered hash_eq small
    rwa [in_eq, out_eq] at computes
  · intro computes group reachable call member info read registered own small
    obtain ⟨in_eq, out_eq⟩ := amounts_of_row stored reachable member read registered own
    rw [in_eq, out_eq]
    exact computes _ small

end stored

section sample

/-- A client that registers the sample hash with amounts of its choice, without fee parameters. -/
def sampleInformation (incomingAmountMsat outgoingAmountMsat : Int64) : PaymentInformation :=
  { paymentHash := some sampleHash
    paymentSecret := some sampleRow.paymentSecret
    destination := some sampleRow.destination
    incomingAmountMsat
    outgoingAmountMsat
    tag := ""
    openingFeeParams := none }

/-- The encoding of that message; `amounts` holds the fields 4 and 5. -/
def sampleMessage (amounts : Bytes) : Bytes :=
  [10, 32] ++ sampleHash ++ [18, 32] ++ sampleRow.paymentSecret ++ [26, 33] ++
    sampleRow.destination ++ amounts

def sampleServer (amounts : Bytes) (pi : PaymentInformation) : ChannelOpenerServer where
  getNode := .ok "token"
  config := sampleInterceptor.config
  time := sampleInterceptor.time
  eciesDecrypt _ := .ok (sampleMessage amounts)
  btcecDecrypt _ := .error "invalid mac"
  unmarshal _ := .ok pi
  validJson _ := true
  verifyPromise _ := true

/-- A client that registers 100000 sat with a fee of 2000 sat. -/
def honestServer : ChannelOpenerServer :=
  sampleServer [32, 128, 194, 215, 47, 40, 128, 185, 221, 46] (sampleInformation 100000000 98000000)

/-- A client that takes in nothing and passes on a negative amount. -/
def zeroServer : ChannelOpenerServer :=
  sampleServer [40, 192, 233, 206, 253, 255, 255, 255, 255, 255, 1] (sampleInformation 0 (-5000000))

def sampleBlob : Bytes := List.replicate 230 4

/-- The world after the registration in an empty store. -/
def registeredWorld (s : ChannelOpenerServer) : World :=
  match s.registerPayment sampleScene.now .empty sampleBlob with
  | .ok payments => { sampleWorld with payments }
  | .error _ => sampleWorld

/-- The honest registration is safe for an htlc that comes in later. -/
theorem stored_amounts_sample :
    (sampleRun sampleScene (registeredWorld honestServer) (samplePart 50000000 51000000)).program =
        .done (sampleResult 49000000) ∧
      Computes 98000000 50000000 100000000 := by
  have vacant : ∀ row ∈ (Table.empty : Payments).rows, row.paymentHash ≠ sampleHash := by
    simp [Table.empty]
  have accepted : honestServer.registerPayment sampleScene.now .empty sampleBlob =
      .ok (registeredWorld honestServer).payments := rfl
  have finishes : (sampleRun sampleScene (registeredWorld honestServer)
    (samplePart 50000000 51000000)).program = .done (sampleResult 49000000) := rfl
  have reachable := sample_serve sampleScene .refl (samplePart 50000000 51000000) [] (by simp)
    (sampleResult 49000000) finishes
  exact ⟨finishes, (stored_amounts_iff rfl rfl rfl vacant accepted).mpr (.inl (by decide)) _
    reachable _ (List.mem_singleton_self _) _ rfl rfl rfl (by decide)⟩

/-- The second client is accepted, and its first htlc divides by zero. -/
theorem registered_division_by_zero :
    zeroServer.registerPayment sampleScene.now .empty sampleBlob =
        .ok (registeredWorld zeroServer).payments ∧
      (sampleRun sampleScene (registeredWorld zeroServer) (samplePart 50000000 51000000)).program =
        .panic :=
  ⟨rfl, rfl⟩

end sample

end Lspd.ChannelOpener
