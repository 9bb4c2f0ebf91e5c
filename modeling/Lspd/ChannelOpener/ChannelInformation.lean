import Lspd.ChannelOpener.RegisterPayment
import Lspd.Common.OpeningService

/-! The rpc that offers fee parameters to clients, and how `RegisterPayment` takes
them back. -/

namespace Lspd.ChannelOpener

open Lspd.Common Lspd.Interceptor Lspd.Lightning

def RpcOpeningFeeParams.ofCommon (params : OpeningFeeParams) : RpcOpeningFeeParams :=
  { minMsat := params.minFeeMsat
    proportional := params.proportional
    validUntil := params.validUntil
    maxIdleTime := params.minLifetime
    maxClientToSelfDelay := params.maxClientToSelfDelay
    promise := params.promise }

/-- What the rpc reads of a node besides the settings of its handler. `lspPubkey`
is the serialized public key. -/
structure InformationConfig extends NodeConfig where
  name : String
  nodePubkey : String
  host : String
  minHtlcMsat : UInt64
  feeRate : Float
  lspPubkey : Bytes

structure ChannelInformationReply where
  name : String
  pubkey : String
  host : String
  channelCapacity : Int64
  targetConf : Int32
  minHtlcMsat : Int64
  baseFeeMsat : Int64
  feeRate : Float
  timeLockDelta : UInt32
  channelFeePermyriad : Int64
  channelMinimumFeeMsat : Int64
  lspPubkey : Bytes
  maxInactiveDuration : Int64
  openingFeeParamsMenu : List RpcOpeningFeeParams

section

variable {Key Point : Type}

/-- `getNode` has the node of the caller, its private key and the caller's token. -/
def channelInformation (service : OpeningService Key Point)
    (getNode : Except String (InformationConfig × Key × String)) (clock : Nat → Time) :
    Except String ChannelInformationReply :=
  match getNode with
  | .error err => .error err
  | .ok (node, privateKey, token) =>
    match service.getFeeParamsMenu clock token privateKey with
    | .error err => .error err
    | .ok params =>
      .ok { name := node.name
            pubkey := node.nodePubkey
            host := node.host
            channelCapacity := node.publicChannelAmount
            targetConf := node.targetConf.toInt32
            minHtlcMsat := node.minHtlcMsat.toInt64
            baseFeeMsat := node.baseFeeMsat.toInt64
            feeRate := node.feeRate
            timeLockDelta := node.timeLockDelta
            channelFeePermyriad := node.channelFeePermyriad
            channelMinimumFeeMsat := node.channelMinimumFeeMsat
            lspPubkey := node.lspPubkey
            maxInactiveDuration := node.maxInactiveDuration.toInt64
            openingFeeParamsMenu := params.map .ofCommon }

/-- The server of a node whose promises the service checks. -/
def ChannelOpenerServer.withOpeningService [DecidableEq Point] (server : ChannelOpenerServer)
    (service : OpeningService Key Point) (publicKey : Point) : ChannelOpenerServer :=
  { server with time := service.time, verifyPromise := service.verifyPromise publicKey }

/-- Times are printed with three digits after the second. -/
def truncateMillis (instant : Time) : Time := instant - instant % 1000000

/-- Nothing is lost on the way to the client and back. -/
@[simp] theorem toCommon_ofCommon (params : OpeningFeeParams) :
    (RpcOpeningFeeParams.ofCommon params).toCommon = params := rfl

variable [DecidableEq Point] {service : OpeningService Key Point} {publicKey : Point}

theorem openingFeeParams_iff {server : ChannelOpenerServer} {now : Time}
    {params : RpcOpeningFeeParams} :
    (server.withOpeningService service publicKey).openingFeeParams now (some params) = .ok params ↔
      service.validateOpeningFeeParams now params.toCommon publicKey = true := by
  have same : (server.withOpeningService service publicKey).validateOpeningFeeParams now
      params.toCommon = service.validateOpeningFeeParams now params.toCommon publicKey := rfl
  rw [ChannelOpenerServer.openingFeeParams, same]
  split_ifs with valid <;> simp [valid]

/-- Every offer is taken back up to its expiry and no longer, and the menu has the
settings in the order of their fees. -/
theorem menu_accepted_until_expiry {node : InformationConfig} {privateKey : Key} {token : String}
    {settings : List OpeningFeeParamsSetting} {clock : Nat → Time}
    (signs : service.Signs privateKey publicKey)
    (stored : service.getFeeParamsSettings token = .ok settings)
    (inverts : ∀ index setting, settings[index]? = some setting →
      service.time.parse (service.time.format (clock index + setting.validity)) =
        some (truncateMillis (clock index + setting.validity)))
    (server : ChannelOpenerServer) :
    ∃ reply, channelInformation service (.ok (node, privateKey, token)) clock = .ok reply ∧
      (∀ params ∈ reply.openingFeeParamsMenu, ∃ index setting, settings[index]? = some setting ∧
        params.toCommon.fees = setting.params.fees ∧ ∀ now,
          (service.validateOpeningFeeParams now params.toCommon publicKey = true ↔
            now ≤ truncateMillis (clock index + setting.validity)) ∧
          ((server.withOpeningService service publicKey).openingFeeParams now (some params) =
              .ok params ↔
            now ≤ truncateMillis (clock index + setting.validity))) ∧
      (reply.openingFeeParamsMenu.map fun params => params.toCommon.fees).Perm
        (settings.map fun setting => setting.params.fees) ∧
      reply.openingFeeParamsMenu.Pairwise fun earlier later =>
        earlier.minMsat < later.minMsat ∨
          earlier.minMsat = later.minMsat ∧ earlier.proportional ≤ later.proportional := by
  obtain ⟨menu, built⟩ : ∃ menu, service.getFeeParamsMenu clock token privateKey = .ok menu := by
    rw [OpeningService.getFeeParamsMenu, stored]
    exact ⟨_, rfl⟩
  simp only [channelInformation, built]
  refine ⟨_, rfl, ?_, ?_, ?_⟩
  · intro params member
    obtain ⟨entry, among, rfl⟩ := List.mem_map.mp member
    obtain ⟨index, setting, at_, rfl⟩ := OpeningService.exists_entry_of_mem_menu stored built among
    refine ⟨index, setting, at_, rfl, fun now => ?_⟩
    rw [openingFeeParams_iff, toCommon_ofCommon]
    exact ⟨OpeningService.validate_entry signs (inverts index setting at_),
      OpeningService.validate_entry signs (inverts index setting at_)⟩
  · rw [List.map_map]
    exact OpeningService.fees_of_menu stored built
  · rw [List.pairwise_map]
    exact (OpeningService.sorted_of_menu built).imp fun ordered => feeLess_eq_false.mp ordered

end

section Sample

/-! Two settings, offered with the private key 1. -/

def feeSettings : List OpeningFeeParamsSetting :=
  [⟨86400 * second, ⟨2000000, 4000, "", 1008, 2016, ""⟩⟩,
    ⟨7200 * second, ⟨1000000, 5000, "", 1008, 2016, ""⟩⟩]

def feeClock (index : Nat) : Time :=
  if index = 0 then 1700000000123456789 else 1700000000123457890

def feeTime : TimeTexts where
  format instant :=
    if truncateMillis instant = 1700086400123000000 then "2023-11-15T22:13:20.123Z"
    else "2023-11-15T00:13:20.123Z"
  parse text :=
    if text = "2023-11-15T22:13:20.123Z" then some 1700086400123000000
    else if text = "2023-11-15T00:13:20.123Z" then some 1700007200123000000
    else none
  parseDuration _ := none

def dailyHash : Bytes :=
  bigEndian 32 0xb25645206103886ffb5c3b420b91607e9bed0678a91bf23942765449483a7144

def hourlyHash : Bytes :=
  bigEndian 32 0x7f1cbef9b995f8f746065ef915ca794b8dba52e3f450818dda092ac334b37d6b

def dailySignature : Bytes := 32 ::
  (bigEndian 32 0x6a597e5d2bab1b4e562c281ce3b3e8e5d4b6a03ceaf95a1d9aab1898d97797bb ++
  bigEndian 32 0x1222cc0c04621f782ad25d466758884a4980395807ed42ff7e4cb7c3e4cef9a6)

def hourlySignature : Bytes := 31 ::
  (bigEndian 32 0x2ff383fa3b252cb8db7d52111e67b3314464c41ba921e16be7c2cb4a4d91e095 ++
  bigEndian 32 0x6d33ebd39be2be734201dffd6e5237c3b5163ea36651e88397526b5dde730b22)

def feeSignature (hash : Bytes) : Bytes :=
  if hash = dailyHash then dailySignature else if hash = hourlyHash then hourlySignature else 0 :: hash

/-- The public key of 1. -/
def generator : Bytes :=
  2 :: bigEndian 32 0x79be667ef9dcbbac55a06295ce870b07029bfcdb2dce28d959f2815b16f81798

def mergeSlice : SortSlice feeLess where
  sort list := list.mergeSort fun one two => !feeLess two one
  perm list := List.mergeSort_perm list _
  sorted list := by
    have ordered := @List.pairwise_mergeSort _ (fun one two => !feeLess two one) ?_ ?_ list
    · exact ordered.imp fun before => by simpa using before
    · intro one two three
      simp only [Bool.not_eq_true', feeLess_eq_false, UInt64.lt_iff_toNat_lt, ← UInt64.toNat_inj,
        UInt32.le_iff_toNat_le]
      omega
    · intro one two
      simp only [Bool.or_eq_true, Bool.not_eq_true', feeLess_eq_false, UInt64.lt_iff_toNat_lt,
        ← UInt64.toNat_inj, UInt32.le_iff_toNat_le]
      omega

def feeService : OpeningService Nat Bytes where
  getFeeParamsSettings _ := .ok feeSettings
  time := feeTime
  sha256 text :=
    if text = "[2000000,4000,\"2023-11-15T22:13:20.123Z\",1008,2016]" then dailyHash
    else if text = "[1000000,5000,\"2023-11-15T00:13:20.123Z\",1008,2016]" then hourlyHash
    else []
  signCompact _ := feeSignature
  recoverCompact sig hash :=
    if sig = feeSignature hash then .ok generator
    else if sig = dailySignature ∧ hash = hourlyHash then
      .ok (2 :: bigEndian 32 0x7cdf70523d53cda6737dbdf763caed82f04b55be4abd953727b8630da09a9ea1)
    else if sig = hourlySignature ∧ hash = dailyHash then
      .ok (3 :: bigEndian 32 0xd4229c8258e6ed54d01b8c37f78ecb9ef39864b8bdd706f16f3d974a51979bba)
    else .error "invalid compact signature"
  sortSlice := mergeSlice

def feeNode : InformationConfig :=
  { sampleInterceptor.config with
    name := "lsp", nodePubkey := encodeToString generator, host := "127.0.0.1:9735"
    minHtlcMsat := 600, feeRate := 0.000001, lspPubkey := generator }

/-- The cheaper of two offers is listed first, and both are taken until they expire. -/
theorem menu_accepted_sample :
    ∃ reply, channelInformation feeService (.ok (feeNode, 1, "token")) feeClock = .ok reply ∧
      (∀ params ∈ reply.openingFeeParamsMenu, ∃ index setting, feeSettings[index]? = some setting ∧
        params.toCommon.fees = setting.params.fees ∧ ∀ now,
          (feeService.validateOpeningFeeParams now params.toCommon generator = true ↔
            now ≤ truncateMillis (feeClock index + setting.validity)) ∧
          ((honestServer.withOpeningService feeService generator).openingFeeParams now
              (some params) = .ok params ↔
            now ≤ truncateMillis (feeClock index + setting.validity))) ∧
      (reply.openingFeeParamsMenu.map fun params => params.toCommon.fees).Perm
        [(2000000, 4000, 1008, 2016), (1000000, 5000, 1008, 2016)] ∧
      reply.openingFeeParamsMenu.Pairwise fun earlier later =>
        earlier.minMsat < later.minMsat ∨
          earlier.minMsat = later.minMsat ∧ earlier.proportional ≤ later.proportional := by
  have signs : feeService.Signs 1 generator := fun hash => if_pos rfl
  have inverts : ∀ index setting, feeSettings[index]? = some setting →
      feeTime.parse (feeTime.format (feeClock index + setting.validity)) =
        some (truncateMillis (feeClock index + setting.validity)) := by
    intro index setting found
    match index, found with
    | 0, found => cases found; decide
    | 1, found => cases found; decide
    | _ + 2, found => cases found
  exact menu_accepted_until_expiry signs rfl inverts honestServer

end Sample

end Lspd.ChannelOpener
