import Lspd.Btceclegacy.Ciphering

/-! The rpc that tells a client which of its channels are closed. Requests and
replies are encrypted, with ecies or with the scheme of old clients. -/

namespace Lspd.ChannelOpener

open Lspd.Lightning
open Btceclegacy (multiplesX multiplesY uncompressed compressed sampleIv requestKey replyKey)

structure Signed where
  data : Bytes
  pubkey : Bytes
  signature : Bytes

structure CheckChannelsRequest where
  encryptPubkey : Bytes
  fakeChannels : List (String × UInt64)
  waitingCloseChannels : List (String × UInt64)

structure CheckChannelsReply where
  notFakeChannels : List (String × UInt64)
  closedChannels : List (String × UInt64)

/-- The keys and the client of a `common.Node`. -/
structure NodeKeys (Secret Point : Type) where
  privateKey : Secret
  eciesPrivateKey : Secret
  eciesPublicKey : Point
  getClosedChannels : String → List (String × UInt64) → Except String (List (String × UInt64))

/-- What `CheckChannels` uses of other libraries. An encryption takes what it draws
at random as its first argument. -/
structure CheckChannelsServer (Secret Point : Type) where
  getNode : Except String (NodeKeys Secret Point)
  legacy : Btceclegacy.Primitives Secret Point
  eciesEncrypt : Except String (Secret × Bytes) → Point → Bytes → Except String Bytes
  eciesDecrypt : Secret → Bytes → Except String Bytes
  unmarshalSigned : Bytes → Except String Signed
  unmarshalRequest : Bytes → Except String CheckChannelsRequest
  marshalReply : CheckChannelsReply → Except String Bytes
  newSigFromECDSARawSignature : Bytes → Except String Bytes
  toSignature : Bytes → Except String Bytes
  hashB : Bytes → Bytes
  verify : Bytes → Bytes → Point → Bool
  formatChannels : List (String × UInt64) → String

inductive Scheme where
  | ecies
  | btcec
  deriving DecidableEq

namespace CheckChannelsServer

variable {Secret Point : Type} (s : CheckChannelsServer Secret Point)

/-- The plain bytes of a request, and whether they were encrypted with ecies. -/
def openBlob (node : NodeKeys Secret Point) (data : Bytes) : Except String (Bytes × Bool) :=
  match s.eciesDecrypt node.eciesPrivateKey data with
  | .ok signedBlob => .ok (signedBlob, true)
  | .error _ =>
    match Btceclegacy.decrypt s.legacy node.privateKey data with
    | .ok signedBlob => .ok (signedBlob, false)
    | .error err => .error s!"btcec.Decrypt({encodeToString data}) error: {err}"

/-- The checks on a signed blob. The signature is over the hash of the data. -/
def verifySigned (signed : Signed) : Except String Unit := do
  let pubkey ← (s.legacy.parsePubKey signed.pubkey).mapError
    fun err => s!"unable to parse pubkey: {err}"
  let wireSig ← (s.newSigFromECDSARawSignature signed.signature).mapError
    fun err => s!"failed to decode signature: {err}"
  let sig ← (s.toSignature wireSig).mapError
    fun err => s!"failed to convert from wire format: {err}"
  if s.verify sig (s.hashB signed.data) pubkey then return ()
  else throw "invalid signature"

def getSignedEncryptedData (node : NodeKeys Secret Point) (data : Bytes) :
    Except String (String × Bytes × Bool) := do
  let (signedBlob, usedEcies) ← s.openBlob node data
  let signed ← (s.unmarshalSigned signedBlob).mapError
    fun err => s!"proto.Unmarshal({encodeToString signedBlob}) error: {err}"
  s.verifySigned signed
  return (encodeToString signed.pubkey, signed.data, usedEcies)

/-- The reply is encrypted with the scheme of the request: with ecies for the
node's own key, else for the key in the request. -/
def encryptReply (draw : Except String (Secret × Bytes)) (node : NodeKeys Secret Point)
    (usedEcies : Bool) (pubkey : Point) (dataReply : Bytes) : Except String Bytes :=
  if usedEcies then
    (s.eciesEncrypt draw node.eciesPublicKey dataReply).mapError
      fun err => s!"ecies.Encrypt() error: {err}"
  else
    (Btceclegacy.encrypt s.legacy draw pubkey dataReply).mapError
      fun err => s!"btcec.Encrypt() error: {err}"

def checkChannels (draw : Except String (Secret × Bytes)) (data : Bytes) : Except String Bytes := do
  let node ← s.getNode
  let (nodeID, data, usedEcies) ← (s.getSignedEncryptedData node data).mapError
    fun err => s!"getSignedEncryptedData error: {err}"
  let request ← (s.unmarshalRequest data).mapError
    fun err => s!"proto.Unmarshal({encodeToString data}) error: {err}"
  let closedChannels ← (node.getClosedChannels nodeID request.waitingCloseChannels).mapError
    fun err => s!"GetClosedChannels({s.formatChannels request.fakeChannels}) error: {err}"
  let dataReply ← (s.marshalReply ⟨[], closedChannels⟩).mapError
    fun err => s!"proto.Marshal() error: {err}"
  let pubkey ← (s.legacy.parsePubKey request.encryptPubkey).mapError
    fun err => s!"unable to parse pubkey: {err}"
  s.encryptReply draw node usedEcies pubkey dataReply

/-- What a client that knows both schemes does. -/
def encrypt (draw : Except String (Secret × Bytes)) (key : Point) (data : Bytes) :
    Scheme → Except String Bytes
  | .ecies => s.eciesEncrypt draw key data
  | .btcec => Btceclegacy.encrypt s.legacy draw key data

def decrypt (secret : Secret) (data : Bytes) : Scheme → Except String Bytes
  | .ecies => s.eciesDecrypt secret data
  | .btcec => Btceclegacy.decrypt s.legacy secret data

/-- What is known of ecies: it decrypts what was encrypted for a key with that key
only, and nothing that was encrypted with the other scheme. -/
structure Ecies : Prop where
  opens : ∀ {draw secret data out},
    s.eciesEncrypt draw (s.legacy.pubKey secret) data = .ok out → s.eciesDecrypt secret out = .ok data
  foreign : ∀ {draw key secret data out}, s.eciesEncrypt draw key data = .ok out →
    key ≠ s.legacy.pubKey secret → ∃ err, s.eciesDecrypt secret out = .error err
  legacy : ∀ {ephemeral iv key secret data out}, iv.length = 16 →
    Btceclegacy.encrypt s.legacy (.ok (ephemeral, iv)) key data = .ok out →
    ∃ err, s.eciesDecrypt secret out = .error err

/-- A signed request that a client with the given key encrypted for the node, and
the reply the node has for it. -/
structure Valid (scheme : Scheme) (secret : Secret) (data dataReply : Bytes) where
  node : NodeKeys Secret Point
  signedBlob : Bytes
  signed : Signed
  request : CheckChannelsRequest
  closedChannels : List (String × UInt64)
  ephemeral : Secret
  iv : Bytes
  length_iv : iv.length = 16
  authorized : s.getNode = .ok node
  keys : node.eciesPublicKey = s.legacy.pubKey node.eciesPrivateKey
  encrypted : s.encrypt (.ok (ephemeral, iv))
    (match scheme with
      | .ecies => node.eciesPublicKey
      | .btcec => s.legacy.pubKey node.privateKey) signedBlob scheme = .ok data
  unmarshalled : s.unmarshalSigned signedBlob = .ok signed
  verified : s.verifySigned signed = .ok ()
  requested : s.unmarshalRequest signed.data = .ok request
  own : s.legacy.parsePubKey request.encryptPubkey = .ok (s.legacy.pubKey secret)
  closed : node.getClosedChannels (encodeToString signed.pubkey) request.waitingCloseChannels =
    .ok closedChannels
  marshalled : s.marshalReply ⟨[], closedChannels⟩ = .ok dataReply

section Reply

variable {s} {scheme : Scheme} {secret : Secret} {data dataReply : Bytes}

/-- The server finds the scheme the client used. -/
theorem openBlob_valid (lawful : s.legacy.Lawful) (ecies : s.Ecies)
    (valid : s.Valid scheme secret data dataReply) :
    s.openBlob valid.node data = .ok (valid.signedBlob, decide (scheme = .ecies)) := by
  have encrypted := valid.encrypted
  cases scheme with
  | ecies =>
    rw [valid.keys] at encrypted
    rw [openBlob, ecies.opens encrypted]
    rfl
  | btcec =>
    obtain ⟨err, fails⟩ := @Ecies.legacy _ _ _ ecies _ _ _ valid.node.eciesPrivateKey _ _
      valid.length_iv encrypted
    rw [openBlob, fails, Btceclegacy.decrypt_encrypt lawful valid.length_iv encrypted]
    rfl

theorem checkChannels_valid (lawful : s.legacy.Lawful) (ecies : s.Ecies)
    (valid : s.Valid scheme secret data dataReply) (draw : Except String (Secret × Bytes)) :
    s.checkChannels draw data =
      s.encryptReply draw valid.node (decide (scheme = .ecies)) (s.legacy.pubKey secret)
        dataReply := by
  have received : s.getSignedEncryptedData valid.node data =
      .ok (encodeToString valid.signed.pubkey, valid.signed.data, decide (scheme = .ecies)) := by
    rw [getSignedEncryptedData, openBlob_valid lawful ecies valid]
    simp only [bind, Except.bind, valid.unmarshalled, Except.mapError, valid.verified]
    rfl
  rw [checkChannels, valid.authorized]
  simp only [bind, Except.bind, received, Except.mapError, valid.requested, valid.closed,
    valid.marshalled, valid.own]

/-- The reply to a valid request decrypts for the client exactly if it used the old
scheme, or if its key is the one of the node. -/
theorem reply_decrypts_iff (lawful : s.legacy.Lawful) (ecies : s.Ecies)
    (valid : s.Valid scheme secret data dataReply) {ephemeral : Secret} {iv : Bytes}
    (length_iv : iv.length = 16)
    (available : ∃ out, s.eciesEncrypt (.ok (ephemeral, iv)) valid.node.eciesPublicKey dataReply =
      .ok out) :
    (∃ reply, s.checkChannels (.ok (ephemeral, iv)) data = .ok reply ∧
        s.decrypt secret reply scheme = .ok dataReply) ↔
      scheme = .btcec ∨ s.legacy.pubKey secret = valid.node.eciesPublicKey := by
  rw [checkChannels_valid lawful ecies valid]
  cases scheme with
  | btcec =>
    have encrypted : ∃ out, Btceclegacy.encrypt s.legacy (.ok (ephemeral, iv))
        (s.legacy.pubKey secret) dataReply = .ok out := ⟨_, rfl⟩
    obtain ⟨out, encrypted⟩ := encrypted
    refine iff_of_true ⟨out, ?_, Btceclegacy.decrypt_encrypt lawful length_iv encrypted⟩ (.inl rfl)
    simp only [encryptReply, encrypted, Except.mapError, reduceCtorEq, decide_false,
      Bool.false_eq_true, if_false]
  | ecies =>
    obtain ⟨out, encrypted⟩ := available
    have reply : s.encryptReply (.ok (ephemeral, iv)) valid.node (decide (Scheme.ecies = .ecies))
        (s.legacy.pubKey secret) dataReply = .ok out := by
      simp only [encryptReply, encrypted, Except.mapError, decide_true, if_true]
    rw [reply]
    by_cases same : s.legacy.pubKey secret = valid.node.eciesPublicKey
    · rw [← same] at encrypted
      exact iff_of_true ⟨out, rfl, ecies.opens encrypted⟩ (.inr same)
    · obtain ⟨err, fails⟩ := ecies.foreign encrypted (Ne.symm same)
      refine iff_of_false ?_ (by simp [same])
      rintro ⟨other, sent, decrypted⟩
      obtain rfl := Except.ok.inj sent
      rw [decrypt, fails] at decrypted
      cases decrypted

end Reply

section Sample

/-! A node with the private key 1, a client with the key 2, and 3 as the ephemeral
key of every encryption. -/

def sampleRequest : CheckChannelsRequest := ⟨compressed 1, [], [("ab:0", 1)]⟩

def requestBytes : Bytes := [0x0a, 33] ++ compressed 1 ++ bigEndian 10 0x1a080a0461623a301001

def replyBytes : Bytes := bigEndian 10 0x12080a0461623a301001

def signatureR : Bytes :=
  bigEndian 32 0x2f8bde4d1a07209355b4a7250a5c5128e88b84bddc619ab7cba8d569b240efe4

def signatureS : Bytes :=
  bigEndian 32 0x7e2b56e5fa37d67a3f606adc9283998cdac7c055a8ac783e4eb152115eb1a6ae

def requestDigest : Bytes :=
  bigEndian 32 0x17c0f5e3af08ef3c9178c804c7d95d70ff71fe633409e35072803269d489df1c

def sampleSigned : Signed :=
  ⟨requestBytes, compressed 1, [0x30, 68, 0x02, 32] ++ signatureR ++ [0x02, 32] ++ signatureS⟩

def signedBytes : Bytes :=
  [0x0a, 45] ++ sampleSigned.data ++ [0x12, 33] ++ sampleSigned.pubkey ++ [0x1a, 70] ++
    sampleSigned.signature

def eciesRequest : Bytes := uncompressed 2 ++ sampleIv ++
  bigEndian 32 0xd10fe1f71e35380274f03a0a5b437b1ed06455f81fdcf884f976f593e3f2b9e7 ++
  bigEndian 32 0x31af39135565bbf7f0124a3c48a0129cf6513c85f1e406df018c3a2abf55eac4 ++
  bigEndian 32 0x9cc7aaa66a81befbca4b3a23f807003931a4e1126c1e9e23cdad0b7bf8cd8c11 ++
  bigEndian 32 0x210b8f7d089eadd2251269cdcfe83124e7f05a25f5b4ed4a7029b1b47214b1ff ++
  bigEndian 32 0x70c4f8729d1178058e54f10a257556d0e027c5f8cc5d5ce10df03e01fe594a72 ++
  bigEndian 10 0x4ef0b761310c7a1b7ff6

def eciesReply : Bytes := uncompressed 2 ++ sampleIv ++
  bigEndian 26 0x341aa43edb12fe21e4f923d395cbc09ac84155dd7c78c6cb7d36

def requestBlocks : Bytes :=
  bigEndian 32 0xba3df03353002a30680529c849ad254e4991356a2a1865ee0d9f9b1ed0cffffe ++
  bigEndian 32 0xbf42e697e654229ae3433d7cbb8f82d5307764a09fe1367d4ab1de31feec0eaf ++
  bigEndian 32 0xc83a7b89a50ef56d768cd5127f047f419ee4cf0a83a37a74eea99adecdea3a37 ++
  bigEndian 32 0x1011f19b65de35cf5f15a7b843e9979c0a7ec870b3fa0226c7aa777b5d3a5609 ++
  bigEndian 32 0x836165fd7f4d015e340aefb321055f2e9f90fe8efad713a309e7101de488f369

def replyBlocks : Bytes := bigEndian 16 0xeeaf4899c0aa84206918d27d0e6b6e41

def requestMac : Bytes :=
  bigEndian 32 0xb58c2897de37590cd0f70109167967c3eeb907446f12bf02efbab8e89ba10ae9

def replyMac : Bytes :=
  bigEndian 32 0xf309f23c0f6b634d50d907900765a92b2827d0e42325269e26e035a1bfa3214c

def sampleCbc (key iv : Bytes) : Equiv.Perm Bytes :=
  if key = requestKey.take 32 ∧ iv = sampleIv then
    Equiv.swap (Btceclegacy.addPKCSPadding signedBytes) requestBlocks
  else if key = replyKey.take 32 ∧ iv = sampleIv then
    Equiv.swap (Btceclegacy.addPKCSPadding replyBytes) replyBlocks
  else Equiv.refl _

def sampleMac (key _message : Bytes) : Bytes :=
  if key = requestKey.drop 32 then requestMac else if key = replyKey.drop 32 then replyMac
  else List.replicate 32 0

def samplePrimitives : Btceclegacy.Primitives (Fin 3) (Fin 3) :=
  Btceclegacy.threePoints sampleCbc sampleMac

theorem samplePrimitives_lawful : samplePrimitives.Lawful := by
  refine Btceclegacy.threePoints_lawful (fun key iv data => ?_) fun key message => ?_
  · unfold sampleCbc
    split_ifs
    · exact Btceclegacy.length_swap (by decide +kernel) data
    · exact Btceclegacy.length_swap (by decide +kernel) data
    · rfl
  · unfold sampleMac
    split_ifs <;> rfl

/-- An lnd node without channels that wait for being closed. -/
def sampleNode : NodeKeys (Fin 3) (Fin 3) := ⟨0, 0, 0, fun _ channelPoints => .ok channelPoints⟩

def sampleServer : CheckChannelsServer (Fin 3) (Fin 3) where
  getNode := .ok sampleNode
  legacy := samplePrimitives
  eciesEncrypt _ key data :=
    if key = 0 ∧ data = signedBytes then .ok eciesRequest
    else if key = 0 ∧ data = replyBytes then .ok eciesReply
    else .error "cannot read random bytes for nonce"
  eciesDecrypt secret data :=
    if secret = 0 ∧ data = eciesRequest then .ok signedBytes
    else if secret = 0 ∧ data = eciesReply then .ok replyBytes
    else .error "cannot decrypt ciphertext: cipher: message authentication failed"
  unmarshalSigned data :=
    if data = signedBytes then .ok sampleSigned else .error "proto: cannot parse invalid wire-format data"
  unmarshalRequest data :=
    if data = requestBytes then .ok sampleRequest
    else .error "proto: cannot parse invalid wire-format data"
  marshalReply reply :=
    if reply.notFakeChannels = [] ∧ reply.closedChannels = [("ab:0", 1)] then .ok replyBytes else .ok []
  newSigFromECDSARawSignature signature :=
    if signature = sampleSigned.signature then .ok (signatureR ++ signatureS)
    else .error "malformed signature"
  toSignature := .ok
  hashB data := if data = requestBytes then requestDigest else []
  verify signature digest key :=
    signature = signatureR ++ signatureS ∧ digest = requestDigest ∧ key = 1
  formatChannels _ := "map[]"

theorem sampleServer_ecies : sampleServer.Ecies where
  opens := by
    intro draw secret data out encrypted
    simp only [sampleServer, samplePrimitives] at encrypted ⊢
    have different : eciesReply ≠ eciesRequest := by decide +kernel
    split_ifs at encrypted with one two <;> cases encrypted
    · rw [if_pos ⟨one.1, rfl⟩, one.2]
    · rw [if_neg (by simp [different]), if_pos ⟨two.1, rfl⟩, two.2]
  foreign := by
    intro draw key secret data out encrypted other
    simp only [sampleServer, samplePrimitives] at encrypted other ⊢
    have zero : key = 0 := by
      split_ifs at encrypted with one two
      · exact one.1
      · exact two.1
    rw [if_neg fun both => other (zero.trans both.1.symm),
      if_neg fun both => other (zero.trans both.1.symm)]
    exact ⟨_, rfl⟩
  legacy := by
    intro ephemeral iv key secret data out lengthIv encrypted
    have curve := Btceclegacy.slice_encrypt lengthIv encrypted
    have request : out ≠ eciesRequest := by
      rintro rfl
      exact absurd curve (by decide +kernel)
    have reply : out ≠ eciesReply := by
      rintro rfl
      exact absurd curve (by decide +kernel)
    simp only [sampleServer, request, reply, and_false, if_false]
    exact ⟨_, rfl⟩

def legacyRequest : Bytes :=
  sampleIv ++ Btceclegacy.ciphCurveBytes ++ Btceclegacy.ciphCoordLength ++ multiplesX 3 ++
    Btceclegacy.ciphCoordLength ++ multiplesY 3 ++ requestBlocks ++ requestMac

/-- The same request, encrypted with either scheme. -/
def sampleData : Scheme → Bytes
  | .ecies => eciesRequest
  | .btcec => legacyRequest

def sampleValid (scheme : Scheme) : sampleServer.Valid scheme 1 (sampleData scheme) replyBytes where
  node := sampleNode
  signedBlob := signedBytes
  signed := sampleSigned
  request := sampleRequest
  closedChannels := [("ab:0", 1)]
  ephemeral := 2
  iv := sampleIv
  length_iv := rfl
  authorized := rfl
  keys := rfl
  encrypted := by
    cases scheme with
    | ecies => simp only [encrypt, sampleServer, sampleNode, sampleData, and_self, if_true]
    | btcec => exact congrArg Except.ok (by decide +kernel)
  unmarshalled := by simp only [sampleServer, if_true]
  verified := by
    have parsed : samplePrimitives.parsePubKey sampleSigned.pubkey = .ok 1 := by decide +kernel
    have valid : sampleServer.verify (signatureR ++ signatureS)
        (sampleServer.hashB sampleSigned.data) 1 = true := by decide +kernel
    have decoded : sampleServer.newSigFromECDSARawSignature sampleSigned.signature =
        .ok (signatureR ++ signatureS) := by simp only [sampleServer, if_true]
    simp only [verifySigned, show sampleServer.legacy = samplePrimitives from rfl, parsed, decoded,
      bind, Except.bind, Except.mapError, show sampleServer.toSignature = .ok from rfl, valid, if_true]
    rfl
  requested := by simp only [sampleServer, sampleSigned, if_true]
  own := by
    have parsed : samplePrimitives.parsePubKey sampleRequest.encryptPubkey = .ok 1 := by decide +kernel
    exact parsed
  closed := rfl
  marshalled := by simp only [sampleServer, and_self, if_true]

theorem sampleServer_encrypts :
    sampleServer.eciesEncrypt (.ok (2, sampleIv)) 0 replyBytes = .ok eciesReply := by
  have different : replyBytes ≠ signedBytes := by decide +kernel
  simp only [sampleServer, different, and_false, if_false, and_self, if_true]

/-- The client's key opens the reply to a request in the old scheme; the reply to
one with ecies only the node's own key would. -/
theorem reply_decrypts_sample :
    (∃ reply, sampleServer.checkChannels (.ok (2, sampleIv)) legacyRequest = .ok reply ∧
        sampleServer.decrypt 1 reply .btcec = .ok replyBytes) ∧
      ¬ ∃ reply, sampleServer.checkChannels (.ok (2, sampleIv)) eciesRequest = .ok reply ∧
        sampleServer.decrypt 1 reply .ecies = .ok replyBytes := by
  have sample (scheme : Scheme) := reply_decrypts_iff samplePrimitives_lawful sampleServer_ecies
    (sampleValid scheme) (show sampleIv.length = 16 from rfl)
    ⟨eciesReply, sampleServer_encrypts⟩
  exact ⟨(sample .btcec).mpr (.inl rfl), fun decrypts =>
    absurd ((sample .ecies).mp decrypts) (by decide +kernel)⟩

/-- A client that asks with ecies gets a reply it cannot decrypt. -/
theorem ecies_reply_undecryptable :
    Nonempty (sampleServer.Valid .ecies 1 eciesRequest replyBytes) ∧
      sampleServer.checkChannels (.ok (2, sampleIv)) eciesRequest = .ok eciesReply ∧
      sampleServer.decrypt 1 eciesReply .ecies =
        .error "cannot decrypt ciphertext: cipher: message authentication failed" := by
  refine ⟨⟨sampleValid .ecies⟩, ?_, rfl⟩
  have reply := checkChannels_valid samplePrimitives_lawful sampleServer_ecies (sampleValid .ecies)
    (.ok (2, sampleIv))
  simp only [encryptReply, sampleValid, sampleNode, sampleServer_encrypts, decide_true, if_true,
    Except.mapError] at reply
  exact reply

end Sample

end CheckChannelsServer

end Lspd.ChannelOpener
