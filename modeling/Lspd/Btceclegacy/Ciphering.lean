import Lspd.Lightning.OutPoint
import Mathlib.Data.List.FinRange
import Mathlib.Logic.Equiv.Basic

/-! The encryption of old clients: an ephemeral key, AES-256-CBC with PKCS#7
padding, and a MAC over everything in front of it. -/

namespace Lspd.Btceclegacy

open Lspd.Lightning

/-- The curve, the block cipher and the hashes, which other libraries compute. -/
structure Primitives (Secret Point : Type) where
  pubKey : Secret → Point
  serializeUncompressed : Point → Bytes
  parsePubKey : Bytes → Except String Point
  generateSharedSecret : Secret → Point → Bytes
  sha512 : Bytes → Bytes
  cbcEncrypt : Bytes → Bytes → Bytes → Bytes
  cbcDecrypt : Bytes → Bytes → Bytes → Bytes
  hmacSha256 : Bytes → Bytes → Bytes

structure Primitives.Lawful {Secret Point : Type} (p : Primitives Secret Point) : Prop where
  shared : ∀ one two,
    p.generateSharedSecret one (p.pubKey two) = p.generateSharedSecret two (p.pubKey one)
  uncompressed : ∀ point, ∃ x y, p.serializeUncompressed point = 4 :: (x ++ y) ∧
    x.length = 32 ∧ y.length = 32
  parses : ∀ point, p.parsePubKey (p.serializeUncompressed point) = .ok point
  cbc_length : ∀ key iv plain, (p.cbcEncrypt key iv plain).length = plain.length
  cbc : ∀ key iv plain, plain.length % 16 = 0 →
    p.cbcDecrypt key iv (p.cbcEncrypt key iv plain) = plain
  mac_length : ∀ key message, (p.hmacSha256 key message).length = 32

def blockSize : Nat := 16

def macSize : Nat := 32

def ciphCurveBytes : Bytes := [0x02, 0xCA]

def ciphCoordLength : Bytes := [0x00, 0x20]

def addPKCSPadding (src : Bytes) : Bytes :=
  let padding := blockSize - src.length % blockSize
  src ++ List.replicate padding (.ofNat padding)

/-- The caller has checked that there is a block, so there is a last byte. -/
def removePKCSPadding (src : Bytes) : Except String Bytes :=
  let padLength := (src.getLast?.getD 0).toNat
  if padLength > blockSize ∨ src.length < blockSize then .error "invalid PKCS#7 padding"
  else .ok (src.take (src.length - padLength))

/-- `data[low:high]`. -/
def slice (data : Bytes) (low high : Nat) : Bytes := (data.drop low).take (high - low)

variable {Secret Point : Type} (p : Primitives Secret Point)

/-- Everything that the MAC is over. -/
def body (ephemeral : Secret) (iv : Bytes) (keyE : Bytes) (data : Bytes) : Bytes :=
  let pb := p.serializeUncompressed (p.pubKey ephemeral)
  iv ++ ciphCurveBytes ++ ciphCoordLength ++ slice pb 1 33 ++ ciphCoordLength ++ pb.drop 33 ++
    p.cbcEncrypt keyE iv (addPKCSPadding data)

/-- `draw` is the ephemeral key and the initialization vector, if there was
randomness for them. -/
def encrypt (draw : Except String (Secret × Bytes)) (pubkey : Point) (data : Bytes) :
    Except String Bytes := do
  let (ephemeral, iv) ← draw
  let derivedKey := p.sha512 (p.generateSharedSecret ephemeral pubkey)
  let keyE := derivedKey.take 32
  let keyM := derivedKey.drop 32
  let out := body p ephemeral iv keyE data
  return out ++ p.hmacSha256 keyM out

def decrypt (priv : Secret) (data : Bytes) : Except String Bytes :=
  if data.length < blockSize + 70 + blockSize + macSize then .error "ciphertext too short"
  else if slice data 16 18 ≠ ciphCurveBytes then .error "unsupported curve"
  else if slice data 18 20 ≠ ciphCoordLength then .error "invalid X length, must be 32"
  else if slice data 52 54 ≠ ciphCoordLength then .error "invalid Y length, must be 32"
  else match p.parsePubKey (4 :: (slice data 20 52 ++ slice data 54 86)) with
    | .error err => .error err
    | .ok pubkey =>
      if (data.length - blockSize - 86 - macSize) % blockSize ≠ 0 then
        .error "invalid PKCS#7 padding"
      else
        let derivedKey := p.sha512 (p.generateSharedSecret priv pubkey)
        let keyE := derivedKey.take 32
        let keyM := derivedKey.drop 32
        let messageMAC := data.drop (data.length - macSize)
        if messageMAC ≠ p.hmacSha256 keyM (data.take (data.length - macSize)) then
          .error "invalid mac hash"
        else
          let iv := data.take blockSize
          removePKCSPadding (p.cbcDecrypt keyE iv (slice data 86 (data.length - macSize)))

theorem length_addPKCSPadding (src : Bytes) :
    (addPKCSPadding src).length % 16 = 0 ∧ 16 ≤ (addPKCSPadding src).length := by
  simp only [addPKCSPadding, blockSize, List.length_append, List.length_replicate]
  omega

theorem removePKCSPadding_addPKCSPadding (src : Bytes) :
    removePKCSPadding (addPKCSPadding src) = .ok src := by
  have long := (length_addPKCSPadding src).2
  have bounds : 0 < blockSize - src.length % blockSize ∧ blockSize - src.length % blockSize ≤ 16 := by
    simp only [blockSize]
    omega
  have last : (addPKCSPadding src).getLast? =
      some (.ofNat (blockSize - src.length % blockSize)) := by
    rw [addPKCSPadding, List.getLast?_append_of_ne_nil _ (by simp; omega), List.getLast?_replicate,
      if_neg (by omega)]
  have value : (UInt8.ofNat (blockSize - src.length % blockSize)).toNat =
      blockSize - src.length % blockSize := by
    rw [UInt8.toNat_ofNat']
    omega
  rw [removePKCSPadding, last, Option.getD_some, value, if_neg (by simp only [blockSize] at *; omega)]
  congr 1
  rw [addPKCSPadding, List.length_append, List.length_replicate, Nat.add_sub_cancel,
    List.take_left]

/-- The parts of an encrypted text at their offsets. -/
structure Layout (data iv x y cipher mac : Bytes) : Prop where
  together : data =
    iv ++ (ciphCurveBytes ++ (ciphCoordLength ++ (x ++ (ciphCoordLength ++ (y ++ (cipher ++ mac))))))
  iv : iv.length = 16
  x : x.length = 32
  y : y.length = 32
  cipher : cipher.length % 16 = 0 ∧ 16 ≤ cipher.length
  mac : mac.length = 32

theorem slice_middle {front middle back : Bytes} {low high : Nat} (start : front.length = low)
    (stop : low + middle.length = high) : slice (front ++ (middle ++ back)) low high = middle := by
  rw [slice, List.drop_left' start, List.take_left' (by omega)]

section Layout

variable {p} {data iv x y cipher mac : Bytes}

theorem Layout.length (layout : Layout data iv x y cipher mac) :
    data.length = 86 + cipher.length + 32 := by
  obtain ⟨rfl, iv, x, y, _, mac⟩ := layout
  simp only [List.length_append, ciphCurveBytes, ciphCoordLength, List.length_cons, List.length_nil,
    iv, x, y, mac]
  omega

theorem Layout.slices (layout : Layout data iv x y cipher mac) :
    data.take blockSize = iv ∧ slice data 16 18 = ciphCurveBytes ∧ slice data 18 20 = ciphCoordLength ∧
      slice data 20 52 = x ∧ slice data 52 54 = ciphCoordLength ∧ slice data 54 86 = y ∧
      slice data 86 (data.length - macSize) = cipher ∧
      data.drop (data.length - macSize) = mac := by
  have length := layout.length
  rw [show macSize = 32 from rfl]
  obtain ⟨rfl, iv, x, y, _, mac⟩ := layout
  have curve : ciphCurveBytes.length = 2 := rfl
  have coord : ciphCoordLength.length = 2 := rfl
  refine ⟨List.take_left' iv, slice_middle iv (by rw [curve]), ?_, ?_, ?_, ?_, ?_, ?_⟩
  · rw [← List.append_assoc]
    exact slice_middle (by rw [List.length_append, iv, curve]) (by rw [coord])
  · rw [← List.append_assoc, ← List.append_assoc]
    exact slice_middle (by simp only [List.length_append, iv, curve, coord]) (by rw [x])
  · rw [← List.append_assoc, ← List.append_assoc, ← List.append_assoc]
    exact slice_middle (by simp only [List.length_append, iv, curve, coord, x]) (by rw [coord])
  · rw [← List.append_assoc, ← List.append_assoc, ← List.append_assoc, ← List.append_assoc]
    exact slice_middle (by simp only [List.length_append, iv, curve, coord, x]) (by rw [y])
  · rw [length, ← List.append_assoc, ← List.append_assoc, ← List.append_assoc, ← List.append_assoc,
      ← List.append_assoc]
    exact slice_middle (by simp only [List.length_append, iv, curve, coord, x, y]) (by omega)
  · rw [length]
    simp only [← List.append_assoc]
    exact List.drop_left' (by simp only [List.length_append, iv, curve, coord, x, y]; omega)

/-- Of a text whose parts stand at their offsets, with the right MAC, only the filler of
the blocks is looked at. -/
theorem decrypt_layout {priv : Secret} {point : Point} (layout : Layout data iv x y cipher mac)
    (parsed : p.parsePubKey (4 :: (x ++ y)) = .ok point)
    (signed : mac = p.hmacSha256 ((p.sha512 (p.generateSharedSecret priv point)).drop 32)
      (data.take (data.length - macSize))) :
    decrypt p priv data = removePKCSPadding
      (p.cbcDecrypt ((p.sha512 (p.generateSharedSecret priv point)).take 32) iv cipher) := by
  have length := layout.length
  have blocks := layout.cipher
  obtain ⟨ivAt, curveAt, lengthXAt, xAt, lengthYAt, yAt, cipherAt, macAt⟩ := layout.slices
  have long : ¬ data.length < blockSize + 70 + blockSize + macSize := by
    simp only [blockSize, macSize]
    omega
  have whole : ¬ (data.length - blockSize - 86 - macSize) % blockSize ≠ 0 := by
    simp only [blockSize, macSize]
    omega
  rw [decrypt, if_neg long, if_neg (not_not.mpr curveAt), if_neg (not_not.mpr lengthXAt),
    if_neg (not_not.mpr lengthYAt), xAt, yAt, parsed]
  dsimp only
  rw [if_neg whole, macAt, if_neg (not_not.mpr signed), ivAt, cipherAt]

/-- The coordinates in the uncompressed form of a point. -/
theorem slice_uncompressed (lengthX : x.length = 32) :
    slice (4 :: (x ++ y)) 1 33 = x ∧ (4 :: (x ++ y)).drop 33 = y := by
  constructor
  · exact @slice_middle [4] x y 1 33 rfl (by omega)
  · rw [List.drop_succ_cons, List.drop_left' lengthX]

end Layout

section RoundTrip

variable {p} {secret ephemeral : Secret} {iv data out : Bytes}

/-- The body starts with the ephemeral key in parts, from which it is parsed again. -/
theorem layout_body (lawful : p.Lawful) (lengthIv : iv.length = 16) (keyE : Bytes) :
    ∃ x y, p.parsePubKey (4 :: (x ++ y)) = .ok (p.pubKey ephemeral) ∧
      ∀ mac, mac.length = 32 → Layout (body p ephemeral iv keyE data ++ mac) iv x y
        (p.cbcEncrypt keyE iv (addPKCSPadding data)) mac := by
  obtain ⟨x, y, point, lengthX, lengthY⟩ := lawful.uncompressed (p.pubKey ephemeral)
  refine ⟨x, y, by rw [← point, lawful.parses], fun mac lengthMac => ?_⟩
  obtain ⟨first, second⟩ := @slice_uncompressed x y lengthX
  refine ⟨?_, lengthIv, lengthX, lengthY, ?_, lengthMac⟩
  · simp only [body, point, first, second, List.append_assoc]
  · rw [lawful.cbc_length]
    exact length_addPKCSPadding data

/-- The curve is named behind the initialization vector. -/
theorem slice_encrypt {key : Point} (lengthIv : iv.length = 16)
    (encrypted : encrypt p (.ok (ephemeral, iv)) key data = .ok out) :
    slice out 16 18 = ciphCurveBytes := by
  obtain rfl := Except.ok.inj encrypted
  simp only [body, List.append_assoc]
  exact slice_middle lengthIv rfl

/-- What was encrypted for a key is decrypted with it. -/
theorem decrypt_encrypt (lawful : p.Lawful) (lengthIv : iv.length = 16)
    (encrypted : encrypt p (.ok (ephemeral, iv)) (p.pubKey secret) data = .ok out) :
    decrypt p secret out = .ok data := by
  obtain rfl := Except.ok.inj encrypted
  rw [lawful.shared ephemeral secret]
  generalize derived : p.sha512 (p.generateSharedSecret secret (p.pubKey ephemeral)) = derivedKey
  obtain ⟨x, y, parsed, layout⟩ := layout_body lawful lengthIv (derivedKey.take 32)
  have lengthMac := lawful.mac_length (derivedKey.drop 32)
    (body p ephemeral iv (derivedKey.take 32) data)
  rw [decrypt_layout (layout _ lengthMac) parsed, derived,
    lawful.cbc _ _ _ (length_addPKCSPadding data).1, removePKCSPadding_addPKCSPadding]
  rw [derived, List.length_append, lengthMac, show macSize = 32 from rfl, Nat.add_sub_cancel,
    List.take_left]

end RoundTrip

section Sample

/-! Keys and points are the first three multiples of the generator of the curve. -/

def multiplesX : Nat → Bytes
  | 1 => bigEndian 32 0x79be667ef9dcbbac55a06295ce870b07029bfcdb2dce28d959f2815b16f81798
  | 2 => bigEndian 32 0xc6047f9441ed7d6d3045406e95c07cd85c778e4b8cef3ca7abac09b95c709ee5
  | 3 => bigEndian 32 0xf9308a019258c31049344f85f89d5229b531c845836f99b08601f113bce036f9
  | 4 => bigEndian 32 0xe493dbf1c10d80f3581e4904930b1404cc6c13900ee0758474fa94abe8c4cd13
  | 6 => bigEndian 32 0xfff97bd5755eeea420453a14355235d382f6472f8568a18b2f057a1460297556
  | _ => bigEndian 32 0xacd484e2f0c7f65309ad178a9f559abde09796974c57e714c35f110dfc27ccbe

def multiplesY : Nat → Bytes
  | 1 => bigEndian 32 0x483ada7726a3c4655da4fbfc0e1108a8fd17b448a68554199c47d08ffb10d4b8
  | 2 => bigEndian 32 0x1ae168fea63dc339a3c58419466ceaeef7f632653266d0e1236431a950cfe52a
  | _ => bigEndian 32 0x388f7b0f632de8140fe337e62a37f3566500a99934c2231b6cb9fd7584b8e672

def uncompressed (point : Fin 3) : Bytes :=
  4 :: (multiplesX (point.val + 1) ++ multiplesY (point.val + 1))

/-- The `y` of all three points is even. -/
def compressed (point : Fin 3) : Bytes := 2 :: multiplesX (point.val + 1)

def sampleIv : Bytes := (List.range 16).map fun index => .ofNat (index + 1)

/-- The keys that two points have in common, derived with SHA-512. -/
def requestKey : Bytes :=
  bigEndian 32 0x3c6d82cd72d7d60b180f5ea2e805cb62ccc61b36dfe062aaa7a893576be4b317 ++
  bigEndian 32 0xa25a7e1b23ae7208f49c9717a1300b0381c233e2df5f0b8b3d054654a1b6a9fb

def replyKey : Bytes :=
  bigEndian 32 0xb246ae803e1cddf00ce428a55d88ebbb6ba2665003bbffee268ed9f9188aabcb ++
  bigEndian 32 0x524a47042275b3545d9b3225aa13ddcae0fef4c9f2b68ce0333a69c368dd05e7

def parseMultiple (data : Bytes) : Except String (Fin 3) :=
  match (List.finRange 3).find? fun point => data = uncompressed point ∨ data = compressed point with
  | some point => .ok point
  | none => .error "malformed public key"

/-- The block cipher and the MAC are given for the texts of a sample. -/
def threePoints (cipher : Bytes → Bytes → Equiv.Perm Bytes) (mac : Bytes → Bytes → Bytes) :
    Primitives (Fin 3) (Fin 3) where
  pubKey := id
  serializeUncompressed := uncompressed
  parsePubKey := parseMultiple
  generateSharedSecret secret point := multiplesX ((secret.val + 1) * (point.val + 1))
  sha512 data :=
    if data = multiplesX 3 then requestKey else if data = multiplesX 6 then replyKey
    else List.replicate 64 0
  cbcEncrypt key iv := cipher key iv
  cbcDecrypt key iv := (cipher key iv).symm
  hmacSha256 := mac

theorem length_swap {one two : Bytes} (same : one.length = two.length) (data : Bytes) :
    (Equiv.swap one two data).length = data.length := by
  rw [Equiv.swap_apply_def]
  grind

theorem threePoints_lawful {cipher : Bytes → Bytes → Equiv.Perm Bytes} {mac : Bytes → Bytes → Bytes}
    (cipher_length : ∀ key iv data, (cipher key iv data).length = data.length)
    (mac_length : ∀ key message, (mac key message).length = 32) :
    (threePoints cipher mac).Lawful where
  shared one two := by simp only [threePoints, id_eq, Nat.mul_comm]
  uncompressed := by
    have lengths : ∀ point : Fin 3, (multiplesX (point.val + 1)).length = 32 ∧
        (multiplesY (point.val + 1)).length = 32 := by decide +kernel
    exact fun point => ⟨_, _, rfl, lengths point⟩
  parses :=
    have parses : ∀ point, parseMultiple (uncompressed point) = .ok point := by decide +kernel
    parses
  cbc_length := cipher_length
  cbc key iv data _ := (cipher key iv).symm_apply_apply data
  mac_length := mac_length

end Sample

end Lspd.Btceclegacy
