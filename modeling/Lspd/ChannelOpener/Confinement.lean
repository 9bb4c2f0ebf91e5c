import Lspd.Btceclegacy.Accepted
import Lspd.ChannelOpener.CheckChannels
import Lspd.ChannelOpener.System
import Lspd.Lightning.ChannelQueries

/-! Whom a reply of `CheckChannels` is about: who can sign for a key learns of the
channels with that key, and of no others. -/

namespace Lspd.ChannelOpener

open Lspd.Lightning
open Btceclegacy (sampleIv)
open Server (eq_ok_of_mapError)

/-- An lnd node with the given keys, and what `PendingChannels` answers it. -/
def NodeKeys.withLnd {Secret Point : Type} (keys : NodeKeys Secret Point)
    (answer : Except String (List Lnd.PendingChannel)) : NodeKeys Secret Point :=
  { keys with getClosedChannels := Lnd.getClosedChannels answer }

namespace CheckChannelsServer

variable {Secret Point : Type}

/-- The server for a call that was authorized for the node. -/
def serving (s : CheckChannelsServer Secret Point) (node : NodeKeys Secret Point) :
    CheckChannelsServer Secret Point :=
  { s with getNode := .ok node }

/-- The rest of `CheckChannels` behind `getSignedEncryptedData`, where
`getClosedChannels` is what the client does for the one who signed. -/
def respond (s : CheckChannelsServer Secret Point) (draw : Except String (Secret × Bytes))
    (node : NodeKeys Secret Point)
    (getClosedChannels : List (String × UInt64) → Except String (List (String × UInt64)))
    (data : Bytes) (usedEcies : Bool) : Except String Bytes := do
  let request ← (s.unmarshalRequest data).mapError
    fun err => s!"proto.Unmarshal({encodeToString data}) error: {err}"
  let closedChannels ← (getClosedChannels request.waitingCloseChannels).mapError
    fun err => s!"GetClosedChannels({s.formatChannels request.fakeChannels}) error: {err}"
  let dataReply ← (s.marshalReply ⟨[], closedChannels⟩).mapError
    fun err => s!"proto.Marshal() error: {err}"
  let pubkey ← (s.legacy.parsePubKey request.encryptPubkey).mapError
    fun err => s!"unable to parse pubkey: {err}"
  s.encryptReply draw node usedEcies pubkey dataReply

/-- What the request holds, encrypted for one of the two keys of the node. -/
inductive Opened (s : CheckChannelsServer Secret Point) (node : NodeKeys Secret Point)
    (data signedBlob : Bytes) : Bool → Prop where
  | ecies (decrypted : s.eciesDecrypt node.eciesPrivateKey data = .ok signedBlob) :
      Opened s node data signedBlob true
  | legacy {iv x y cipher mac filler : Bytes} {point : Point} {err : String}
      (refused : s.eciesDecrypt node.eciesPrivateKey data = .error err)
      (authentic : Btceclegacy.Authentic s.legacy node.privateKey data iv x y cipher mac point)
      (filled : Btceclegacy.Filled
        (s.legacy.cbcDecrypt
          ((s.legacy.sha512 (s.legacy.generateSharedSecret node.privateKey point)).take 32)
          iv cipher) signedBlob filler) :
      Opened s node data signedBlob false

/-- The signature is by the key that comes with it. -/
structure SignedBy (s : CheckChannelsServer Secret Point) (signed : Signed) (pubkey : Point)
    (sig : Bytes) : Prop where
  parsed : s.legacy.parsePubKey signed.pubkey = .ok pubkey
  decoded : ∃ wireSig, s.newSigFromECDSARawSignature signed.signature = .ok wireSig ∧
    s.toSignature wireSig = .ok sig
  verified : s.verify sig (s.hashB signed.data) pubkey = true

/-- A request by whoever signed for a key. -/
structure Asked (s : CheckChannelsServer Secret Point) (node : NodeKeys Secret Point)
    (data : Bytes) (signed : Signed) (usedEcies : Bool) (request : CheckChannelsRequest) : Prop where
  opened : ∃ signedBlob, s.Opened node data signedBlob usedEcies ∧
    s.unmarshalSigned signedBlob = .ok signed
  verified : ∃ pubkey sig, s.SignedBy signed pubkey sig
  requested : s.unmarshalRequest signed.data = .ok request

/-- A reply that tells of the given channels, to the key in the request. -/
structure Replied (s : CheckChannelsServer Secret Point)
    (draw : Except String (Secret × Bytes)) (node : NodeKeys Secret Point) (usedEcies : Bool)
    (request : CheckChannelsRequest) (closedChannels : List (String × UInt64)) (reply : Bytes) :
    Prop where
  told : ∃ dataReply pubkey, s.marshalReply ⟨[], closedChannels⟩ = .ok dataReply ∧
    s.legacy.parsePubKey request.encryptPubkey = .ok pubkey ∧
    s.encryptReply draw node usedEcies pubkey dataReply = .ok reply

section Inversion

variable {s : CheckChannelsServer Secret Point} {node : NodeKeys Secret Point}
variable {data signedBlob : Bytes} {usedEcies : Bool}

theorem opened_of_openBlob (opened : s.openBlob node data = .ok (signedBlob, usedEcies)) :
    s.Opened node data signedBlob usedEcies := by
  rw [openBlob] at opened
  split at opened
  · next blob decrypted =>
    cases opened
    exact .ecies decrypted
  · next err refused =>
    split at opened
    · next blob decrypted =>
      cases opened
      obtain ⟨iv, x, y, cipher, mac, point, filler, authentic, filled⟩ :=
        Btceclegacy.decrypt_eq_ok_iff.mp decrypted
      exact .legacy refused authentic filled
    · cases opened

theorem signedBy_of_verifySigned {signed : Signed} (verified : s.verifySigned signed = .ok ()) :
    ∃ pubkey sig, s.SignedBy signed pubkey sig := by
  rw [verifySigned] at verified
  obtain ⟨pubkey, parsed, verified⟩ := eq_ok_of_bind verified
  obtain ⟨wireSig, decoded, verified⟩ := eq_ok_of_bind verified
  obtain ⟨sig, converted, verified⟩ := eq_ok_of_bind verified
  split_ifs at verified with valid
  exact ⟨pubkey, sig, eq_ok_of_mapError parsed,
    ⟨wireSig, eq_ok_of_mapError decoded, eq_ok_of_mapError converted⟩, valid⟩

theorem getSignedEncryptedData_eq_ok {nodeID : String} {content : Bytes}
    (received : s.getSignedEncryptedData node data = .ok (nodeID, content, usedEcies)) :
    ∃ signedBlob signed, s.Opened node data signedBlob usedEcies ∧
      s.unmarshalSigned signedBlob = .ok signed ∧ (∃ pubkey sig, s.SignedBy signed pubkey sig) ∧
      nodeID = encodeToString signed.pubkey ∧ content = signed.data := by
  rw [getSignedEncryptedData] at received
  obtain ⟨⟨signedBlob, scheme⟩, opened, received⟩ := eq_ok_of_bind received
  obtain ⟨signed, decoded, received⟩ := eq_ok_of_bind received
  obtain ⟨_, verified, received⟩ := eq_ok_of_bind received
  obtain ⟨rfl, rest⟩ := Prod.mk.inj (Except.ok.inj received)
  obtain ⟨rfl, rfl⟩ := Prod.mk.inj rest
  exact ⟨signedBlob, signed, opened_of_openBlob opened, eq_ok_of_mapError decoded,
    signedBy_of_verifySigned verified, rfl, rfl⟩

theorem respond_eq_ok {draw : Except String (Secret × Bytes)} {reply : Bytes}
    {getClosedChannels : List (String × UInt64) → Except String (List (String × UInt64))}
    (replied : s.respond draw node getClosedChannels data usedEcies = .ok reply) :
    ∃ request closedChannels, s.unmarshalRequest data = .ok request ∧
      getClosedChannels request.waitingCloseChannels = .ok closedChannels ∧
      s.Replied draw node usedEcies request closedChannels reply := by
  rw [respond] at replied
  obtain ⟨request, requested, replied⟩ := eq_ok_of_bind replied
  obtain ⟨closedChannels, closed, replied⟩ := eq_ok_of_bind replied
  obtain ⟨dataReply, marshalled, replied⟩ := eq_ok_of_bind replied
  obtain ⟨pubkey, parsed, replied⟩ := eq_ok_of_bind replied
  exact ⟨request, closedChannels, eq_ok_of_mapError requested, eq_ok_of_mapError closed,
    ⟨dataReply, pubkey, eq_ok_of_mapError marshalled, eq_ok_of_mapError parsed, replied⟩⟩

end Inversion

section Confined

variable {s : CheckChannelsServer Secret Point} {keys : NodeKeys Secret Point}
variable {draw : Except String (Secret × Bytes)} {data reply : Bytes}
variable {answer other : Except String (List Lnd.PendingChannel)}

theorem checkChannels_withLnd :
    (s.serving (keys.withLnd answer)).checkChannels draw data =
      ((s.getSignedEncryptedData keys data).mapError
        fun err => s!"getSignedEncryptedData error: {err}") >>= fun received =>
          s.respond draw keys (Lnd.getClosedChannels answer received.1) received.2.1 received.2.2 :=
  rfl

theorem checkChannels_eq_ok
    (replied : (s.serving (keys.withLnd answer)).checkChannels draw data = .ok reply) :
    ∃ signed usedEcies request closedChannels, s.Asked keys data signed usedEcies request ∧
      s.getSignedEncryptedData keys data =
        .ok (encodeToString signed.pubkey, signed.data, usedEcies) ∧
      Lnd.getClosedChannels answer (encodeToString signed.pubkey) request.waitingCloseChannels =
        .ok closedChannels ∧
      s.Replied draw keys usedEcies request closedChannels reply := by
  rw [checkChannels_withLnd] at replied
  obtain ⟨⟨nodeID, content, usedEcies⟩, received, replied⟩ := eq_ok_of_bind replied
  have received := eq_ok_of_mapError received
  obtain ⟨signedBlob, signed, opened, decoded, verified, rfl, rfl⟩ :=
    getSignedEncryptedData_eq_ok received
  obtain ⟨request, closedChannels, requested, closed, told⟩ := respond_eq_ok replied
  exact ⟨signed, usedEcies, request, closedChannels,
    ⟨⟨signedBlob, opened, decoded⟩, verified, requested⟩, received, closed, told⟩

/-- The channels of other peers make no difference. -/
theorem getClosedChannels_congr {nodeID : String} {channelPoints : List (String × UInt64)}
    (same : answer.map (Lnd.getWaitingCloseChannels · nodeID) =
      other.map (Lnd.getWaitingCloseChannels · nodeID)) :
    Lnd.getClosedChannels answer nodeID channelPoints =
      Lnd.getClosedChannels other nodeID channelPoints := by
  unfold Lnd.getClosedChannels
  split_ifs
  · rfl
  · cases answer with
    | error err =>
      cases other with
      | error err' => exact congrArg _ (Except.error.inj same)
      | ok channels => cases same
    | ok channels =>
      cases other with
      | error err => cases same
      | ok channels' =>
        have same : Lnd.getWaitingCloseChannels channels nodeID =
          Lnd.getWaitingCloseChannels channels' nodeID := Except.ok.inj same
        dsimp only
        rw [same]

theorem mem_getClosedChannels {nodeID : String} {channelPoints closed : List (String × UInt64)}
    (listed : Lnd.getClosedChannels answer nodeID channelPoints = .ok closed)
    (entry : String × UInt64) :
    entry ∈ closed ↔ entry ∈ channelPoints ∧ ∀ channels pending, answer = .ok channels →
      pending ∈ channels → pending.remoteNodePub = nodeID → pending.channelPoint ≠ entry.1 := by
  cases answer with
  | error err =>
    unfold Lnd.getClosedChannels at listed
    split_ifs at listed with empty
    obtain rfl := Except.ok.inj listed
    simp [empty]
  | ok channels =>
    rw [lnd_getClosedChannels_eq] at listed
    obtain rfl := Except.ok.inj listed
    rw [closedChannels, List.mem_filter, decide_eq_true_iff]
    refine and_congr_right fun _ => ?_
    constructor
    · rintro absent _ pending ⟨⟩ member peer named
      refine absent (List.mem_map.mpr ⟨pending, List.mem_filter.mpr ⟨member, ?_⟩, named⟩)
      exact decide_eq_true peer
    · rintro absent closing
      obtain ⟨pending, listed, named⟩ := List.mem_map.mp closing
      obtain ⟨member, peer⟩ := List.mem_filter.mp listed
      exact absent channels pending rfl member (of_decide_eq_true peer) named

theorem checkChannels_congr
    (same : ∀ {nodeID content usedEcies},
      s.getSignedEncryptedData keys data = .ok (nodeID, content, usedEcies) →
      answer.map (Lnd.getWaitingCloseChannels · nodeID) =
        other.map (Lnd.getWaitingCloseChannels · nodeID)) :
    (s.serving (keys.withLnd answer)).checkChannels draw data =
      (s.serving (keys.withLnd other)).checkChannels draw data := by
  rw [checkChannels_withLnd, checkChannels_withLnd]
  cases received : s.getSignedEncryptedData keys data with
  | error err => rfl
  | ok triple =>
    have agree : Lnd.getClosedChannels answer triple.1 = Lnd.getClosedChannels other triple.1 :=
      funext fun _ => getClosedChannels_congr (same received)
    change s.respond draw keys (Lnd.getClosedChannels answer triple.1) _ _ = _
    rw [agree]
    rfl

/-- A reply answers a request that was signed with a key. It tells which of the
channels asked for are not among the closing ones with that key, and would be the same
whatever channels the node had with others. -/
theorem reply_confined
    (replied : (s.serving (keys.withLnd answer)).checkChannels draw data = .ok reply) :
    ∃ signed usedEcies request closedChannels, s.Asked keys data signed usedEcies request ∧
      s.Replied draw keys usedEcies request closedChannels reply ∧
      (∀ entry, entry ∈ closedChannels ↔ entry ∈ request.waitingCloseChannels ∧
        ∀ channels pending, answer = .ok channels → pending ∈ channels →
          pending.remoteNodePub = encodeToString signed.pubkey →
          pending.channelPoint ≠ entry.1) ∧
      ∀ other, answer.map (Lnd.getWaitingCloseChannels · (encodeToString signed.pubkey)) =
          other.map (Lnd.getWaitingCloseChannels · (encodeToString signed.pubkey)) →
        (s.serving (keys.withLnd other)).checkChannels draw data = .ok reply := by
  obtain ⟨signed, usedEcies, request, closedChannels, asked, received, closed, told⟩ :=
    checkChannels_eq_ok replied
  refine ⟨signed, usedEcies, request, closedChannels, asked, told, mem_getClosedChannels closed,
    fun other same => ?_⟩
  rw [← replied]
  refine (checkChannels_congr fun again => ?_).symm
  obtain ⟨rfl, _⟩ := Prod.mk.inj (Except.ok.inj (received.symm.trans again))
  exact same

theorem sampleNode_withLnd : sampleNode.withLnd (.ok []) = sampleNode := by
  have listed : Lnd.getClosedChannels (.ok []) = sampleNode.getClosedChannels := by
    funext nodeID channelPoints
    rw [lnd_getClosedChannels_eq]
    exact congrArg Except.ok (List.filter_eq_self.mpr fun _ _ => rfl)
  rw [NodeKeys.withLnd, listed]

/-- Somebody signed the sample request, and nobody else's channels change the reply. -/
theorem reply_confined_sample :
    (sampleServer.serving (sampleNode.withLnd (.ok []))).checkChannels (.ok (2, sampleIv))
        eciesRequest = .ok eciesReply ∧
      ∃ signed, (∃ pubkey sig, sampleServer.SignedBy signed pubkey sig) ∧
        ∀ other, .ok [] = other.map
            (Lnd.getWaitingCloseChannels · (encodeToString signed.pubkey)) →
          (sampleServer.serving (sampleNode.withLnd other)).checkChannels (.ok (2, sampleIv))
            eciesRequest = .ok eciesReply := by
  have replied : (sampleServer.serving (sampleNode.withLnd (.ok []))).checkChannels
      (.ok (2, sampleIv)) eciesRequest = .ok eciesReply := by
    rw [sampleNode_withLnd]
    have reply := checkChannels_valid samplePrimitives_lawful sampleServer_ecies
      (sampleValid .ecies) (.ok (2, sampleIv))
    simp only [encryptReply, sampleValid, sampleNode, sampleServer_encrypts, decide_true, if_true,
      Except.mapError] at reply
    exact reply
  obtain ⟨signed, _, _, _, asked, _, _, confined⟩ := reply_confined replied
  exact ⟨replied, signed, asked.verified, confined⟩

end Confined

end CheckChannelsServer

end Lspd.ChannelOpener
