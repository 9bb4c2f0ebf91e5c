import Lspd.Btceclegacy.Ciphering

/-! What `Decrypt` accepts: a text with its parts at their offsets, a point of the
curve, and a MAC by somebody who shares the secret of the two keys. -/

namespace Lspd.Btceclegacy

open Lspd.Lightning

/-- The MAC is over everything in front of it, under the second half of the key that
the two sides derive. -/
structure Authentic {Secret Point : Type} (p : Primitives Secret Point) (priv : Secret)
    (data iv x y cipher mac : Bytes) (point : Point) : Prop where
  layout : Layout data iv x y cipher mac
  parsed : p.parsePubKey (4 :: (x ++ y)) = .ok point
  signed : mac = p.hmacSha256 ((p.sha512 (p.generateSharedSecret priv point)).drop 32)
    (data.take (data.length - macSize))

/-- The last byte tells how much was filled up, possibly nothing. The bytes in front
of it may be any. -/
structure Filled (blocks plain filler : Bytes) : Prop where
  together : blocks = plain ++ filler
  counted : blocks.getLast? = some (.ofNat filler.length)
  short : filler.length ≤ 16
  long : 16 ≤ blocks.length

theorem slice_append_drop (data : Bytes) {low high : Nat} (order : low ≤ high) :
    slice data low high ++ data.drop high = data.drop low := by
  have later : data.drop high = (data.drop low).drop (high - low) := by
    rw [List.drop_drop, Nat.add_sub_cancel' order]
  rw [slice, later, List.take_append_drop]

theorem length_slice (data : Bytes) {low high : Nat} (inside : high ≤ data.length) :
    (slice data low high).length = high - low := by
  rw [slice, List.length_take, List.length_drop]
  omega

/-- A text is its parts again, whatever they hold. -/
theorem eq_append_slices {data : Bytes} (long : 134 ≤ data.length) :
    data = data.take 16 ++ (slice data 16 18 ++ (slice data 18 20 ++ (slice data 20 52 ++
      (slice data 52 54 ++ (slice data 54 86 ++ (slice data 86 (data.length - 32) ++
        data.drop (data.length - 32))))))) := by
  rw [slice_append_drop data (by omega), slice_append_drop data (by decide),
    slice_append_drop data (by decide), slice_append_drop data (by decide),
    slice_append_drop data (by decide), slice_append_drop data (by decide),
    List.take_append_drop]

theorem layout_of_slices {data : Bytes} (long : 134 ≤ data.length)
    (curve : slice data 16 18 = ciphCurveBytes) (lengthX : slice data 18 20 = ciphCoordLength)
    (lengthY : slice data 52 54 = ciphCoordLength) (blocks : (data.length - 134) % 16 = 0) :
    Layout data (data.take 16) (slice data 20 52) (slice data 54 86)
      (slice data 86 (data.length - 32)) (data.drop (data.length - 32)) where
  together := by
    have parts := eq_append_slices long
    rwa [curve, lengthX, lengthY] at parts
  iv := by
    rw [List.length_take]
    omega
  x := length_slice data (by omega)
  y := length_slice data (by omega)
  cipher := by
    rw [length_slice data (Nat.sub_le ..)]
    omega
  mac := by
    rw [List.length_drop]
    omega

theorem removePKCSPadding_eq_ok_iff {blocks plain : Bytes} :
    removePKCSPadding blocks = .ok plain ↔ ∃ filler, Filled blocks plain filler := by
  constructor
  · intro removed
    rw [removePKCSPadding] at removed
    split_ifs at removed with invalid
    obtain ⟨short, long⟩ := not_or.mp invalid
    replace short := Nat.le_of_not_lt short
    replace long := Nat.le_of_not_lt long
    rw [blockSize] at short long
    have nonempty : blocks ≠ [] := List.ne_nil_of_length_pos (by omega)
    obtain ⟨last, counted⟩ := Option.ne_none_iff_exists'.mp
      (mt List.getLast?_eq_none_iff.mp nonempty)
    rw [counted, Option.getD_some] at short removed
    obtain rfl := Except.ok.inj removed
    have length : (blocks.drop (blocks.length - last.toNat)).length = last.toNat := by
      rw [List.length_drop]
      omega
    refine ⟨blocks.drop (blocks.length - last.toNat), (List.take_append_drop ..).symm, ?_, ?_, long⟩
    · rw [counted, length, UInt8.ofNat_toNat]
    · rwa [length]
  · rintro ⟨filler, together, counted, short, long⟩
    have value : (UInt8.ofNat filler.length).toNat = filler.length := by
      rw [UInt8.toNat_ofNat']
      omega
    rw [removePKCSPadding, counted, Option.getD_some, value,
      if_neg (by simp only [blockSize]; omega), together, List.length_append,
      Nat.add_sub_cancel, List.take_left]

section Decrypt

variable {Secret Point : Type} {p : Primitives Secret Point} {priv : Secret}
variable {data plain iv x y cipher mac : Bytes} {point : Point}

theorem Authentic.decrypt (authentic : Authentic p priv data iv x y cipher mac point) :
    decrypt p priv data = removePKCSPadding
      (p.cbcDecrypt ((p.sha512 (p.generateSharedSecret priv point)).take 32) iv cipher) :=
  decrypt_layout authentic.layout authentic.parsed authentic.signed

theorem authentic_of_decrypt (decrypted : decrypt p priv data = .ok plain) :
    ∃ iv x y cipher mac point, Authentic p priv data iv x y cipher mac point := by
  rw [decrypt] at decrypted
  cases parsed : p.parsePubKey (4 :: (slice data 20 52 ++ slice data 54 86)) with
  | error err =>
    simp only [parsed] at decrypted
    split_ifs at decrypted
  | ok point =>
    simp only [parsed] at decrypted
    split_ifs at decrypted with short curve lengthX lengthY part forged
    simp only [blockSize, macSize] at short part
    have layout := layout_of_slices (by omega) (not_not.mp curve) (not_not.mp lengthX)
      (not_not.mp lengthY) (by omega)
    exact ⟨_, _, _, _, _, point, layout, parsed, not_not.mp forged⟩

theorem decrypt_eq_ok_iff :
    decrypt p priv data = .ok plain ↔
      ∃ iv x y cipher mac point filler, Authentic p priv data iv x y cipher mac point ∧
        Filled (p.cbcDecrypt ((p.sha512 (p.generateSharedSecret priv point)).take 32) iv cipher)
          plain filler := by
  constructor
  · intro decrypted
    obtain ⟨iv, x, y, cipher, mac, point, authentic⟩ := authentic_of_decrypt decrypted
    rw [authentic.decrypt] at decrypted
    obtain ⟨filler, filled⟩ := removePKCSPadding_eq_ok_iff.mp decrypted
    exact ⟨iv, x, y, cipher, mac, point, filler, authentic, filled⟩
  · rintro ⟨iv, x, y, cipher, mac, point, filler, authentic, filled⟩
    rw [authentic.decrypt]
    exact removePKCSPadding_eq_ok_iff.mpr ⟨filler, filled⟩

end Decrypt

section Sealed

variable {Secret Point : Type}

/-- Every point of the curve has a secret and one uncompressed form, and the block
cipher permutes the blocks. -/
structure Primitives.Complete (p : Primitives Secret Point) : Prop extends p.Lawful where
  secret : ∀ point, ∃ secret, p.pubKey secret = point
  form : ∀ {rest point}, p.parsePubKey (4 :: rest) = .ok point →
    p.serializeUncompressed point = 4 :: rest
  permutes : ∀ key iv cipher, cipher.length % 16 = 0 →
    p.cbcEncrypt key iv (p.cbcDecrypt key iv cipher) = cipher

/-- What `Encrypt` writes once the data is filled up to whole blocks. -/
def encryptBlocks (p : Primitives Secret Point) (ephemeral : Secret) (iv : Bytes) (pubkey : Point)
    (blocks : Bytes) : Bytes :=
  let derivedKey := p.sha512 (p.generateSharedSecret ephemeral pubkey)
  let pb := p.serializeUncompressed (p.pubKey ephemeral)
  let out := iv ++ ciphCurveBytes ++ ciphCoordLength ++ slice pb 1 33 ++ ciphCoordLength ++
    pb.drop 33 ++ p.cbcEncrypt (derivedKey.take 32) iv blocks
  out ++ p.hmacSha256 (derivedKey.drop 32) out

variable {p : Primitives Secret Point} {priv ephemeral : Secret}
variable {data plain iv x y cipher mac blocks : Bytes} {point : Point}

theorem encrypt_eq_encryptBlocks (pubkey : Point) (data : Bytes) :
    encrypt p (.ok (ephemeral, iv)) pubkey data =
      .ok (encryptBlocks p ephemeral iv pubkey (addPKCSPadding data)) := rfl

/-- The text is made as `Encrypt` makes it, for the key of this secret and with some
filler behind the data. -/
structure Sealed (p : Primitives Secret Point) (priv : Secret) (data plain : Bytes)
    (ephemeral : Secret) (iv filler : Bytes) : Prop where
  drawn : iv.length = 16
  whole : (plain ++ filler).length % 16 = 0
  filled : Filled (plain ++ filler) plain filler
  text : data = encryptBlocks p ephemeral iv (p.pubKey priv) (plain ++ filler)

/-- All but the MAC. -/
theorem Layout.take (layout : Layout data iv x y cipher mac) :
    data.take (data.length - macSize) =
      iv ++ ciphCurveBytes ++ ciphCoordLength ++ x ++ ciphCoordLength ++ y ++ cipher := by
  have length := layout.length
  obtain ⟨rfl, lengthIv, lengthX, lengthY, _, lengthMac⟩ := layout
  rw [length]
  simp only [← List.append_assoc]
  refine List.take_left' ?_
  simp only [List.length_append, ciphCurveBytes, ciphCoordLength, List.length_cons,
    List.length_nil, lengthIv, lengthX, lengthY, macSize]
  omega

theorem layout_encryptBlocks (lawful : p.Lawful) (lengthIv : iv.length = 16)
    (whole : blocks.length % 16 = 0) (long : 16 ≤ blocks.length) (pubkey : Point) :
    ∃ x y mac, p.parsePubKey (4 :: (x ++ y)) = .ok (p.pubKey ephemeral) ∧
      Layout (encryptBlocks p ephemeral iv pubkey blocks) iv x y
        (p.cbcEncrypt ((p.sha512 (p.generateSharedSecret ephemeral pubkey)).take 32) iv blocks)
        mac ∧
      mac = p.hmacSha256 ((p.sha512 (p.generateSharedSecret ephemeral pubkey)).drop 32)
        ((encryptBlocks p ephemeral iv pubkey blocks).take
          ((encryptBlocks p ephemeral iv pubkey blocks).length - macSize)) := by
  obtain ⟨x, y, form, lengthX, lengthY⟩ := lawful.uncompressed (p.pubKey ephemeral)
  obtain ⟨first, second⟩ := @slice_uncompressed x y lengthX
  have layout : Layout (encryptBlocks p ephemeral iv pubkey blocks) iv x y
      (p.cbcEncrypt ((p.sha512 (p.generateSharedSecret ephemeral pubkey)).take 32) iv blocks)
      (p.hmacSha256 ((p.sha512 (p.generateSharedSecret ephemeral pubkey)).drop 32)
        (iv ++ ciphCurveBytes ++ ciphCoordLength ++ x ++ ciphCoordLength ++ y ++
          p.cbcEncrypt ((p.sha512 (p.generateSharedSecret ephemeral pubkey)).take 32) iv blocks)) := by
    refine ⟨?_, lengthIv, lengthX, lengthY, ?_, lawful.mac_length _ _⟩
    · simp only [encryptBlocks, form, first, second, List.append_assoc]
    · rw [lawful.cbc_length]
      exact ⟨whole, long⟩
  exact ⟨x, y, _, by rw [← form, lawful.parses], layout, by rw [layout.take]⟩

/-- An authentic text is the one that its blocks encrypt to. -/
theorem Authentic.eq_encryptBlocks (complete : p.Complete)
    (authentic : Authentic p priv data iv x y cipher mac (p.pubKey ephemeral)) :
    data = encryptBlocks p ephemeral iv (p.pubKey priv)
      (p.cbcDecrypt ((p.sha512 (p.generateSharedSecret priv (p.pubKey ephemeral))).take 32)
        iv cipher) := by
  obtain ⟨layout, parsed, signed⟩ := authentic
  obtain ⟨first, second⟩ := @slice_uncompressed x y layout.x
  rw [layout.take] at signed
  rw [encryptBlocks, complete.form parsed, first, second, complete.shared ephemeral priv,
    complete.permutes _ _ _ layout.cipher.1]
  rw [← signed]
  simpa only [List.append_assoc] using layout.together

theorem decrypt_iff_sealed (complete : p.Complete) :
    decrypt p priv data = .ok plain ↔
      ∃ ephemeral iv filler, Sealed p priv data plain ephemeral iv filler := by
  rw [decrypt_eq_ok_iff]
  constructor
  · rintro ⟨iv, x, y, cipher, mac, point, filler, authentic, filled⟩
    obtain ⟨ephemeral, rfl⟩ := complete.secret point
    have written := authentic.eq_encryptBlocks complete
    have whole := authentic.layout.cipher.1
    have blocks := complete.permutes
      ((p.sha512 (p.generateSharedSecret priv (p.pubKey ephemeral))).take 32) iv cipher whole
    rw [filled.together] at written blocks
    refine ⟨ephemeral, iv, filler, authentic.layout.iv, ?_, filled.together ▸ filled, written⟩
    rw [← blocks, complete.cbc_length] at whole
    exact whole
  · rintro ⟨ephemeral, iv, filler, lengthIv, whole, filled, rfl⟩
    obtain ⟨x, y, mac, parsed, layout, signed⟩ := layout_encryptBlocks complete.toLawful lengthIv
      whole filled.long (p.pubKey priv)
    rw [complete.shared ephemeral priv] at layout signed
    refine ⟨iv, x, y, _, mac, _, filler, ⟨layout, parsed, signed⟩, ?_⟩
    rw [complete.cbc _ _ _ whole]
    exact filled

theorem encrypt_iff_sealed (lengthIv : iv.length = 16) :
    encrypt p (.ok (ephemeral, iv)) (p.pubKey priv) plain = .ok data ↔
      ∃ filler, Sealed p priv data plain ephemeral iv filler ∧
        addPKCSPadding plain = plain ++ filler := by
  rw [encrypt_eq_encryptBlocks]
  constructor
  · intro encrypted
    obtain rfl := Except.ok.inj encrypted
    obtain ⟨filler, filled⟩ :=
      removePKCSPadding_eq_ok_iff.mp (removePKCSPadding_addPKCSPadding plain)
    have whole := (length_addPKCSPadding plain).1
    have together := filled.together
    rw [together] at filled whole ⊢
    exact ⟨filler, ⟨lengthIv, whole, filled, rfl⟩, rfl⟩
  · rintro ⟨filler, sealing, padding⟩
    rw [sealing.text, padding]

/-- `Decrypt` accepts the texts that are made as `Encrypt` makes them, with any filler
that tells its length in the last byte. `Encrypt` writes those among them whose filler
is its padding. -/
theorem decrypt_iff_encrypted (complete : p.Complete) :
    (decrypt p priv data = .ok plain ↔
        ∃ ephemeral iv filler, Sealed p priv data plain ephemeral iv filler) ∧
      ∀ ephemeral iv, iv.length = 16 →
        (encrypt p (.ok (ephemeral, iv)) (p.pubKey priv) plain = .ok data ↔
          ∃ filler, Sealed p priv data plain ephemeral iv filler ∧
            addPKCSPadding plain = plain ++ filler) :=
  ⟨decrypt_iff_sealed complete, fun _ _ => encrypt_iff_sealed⟩

theorem threePoints_complete {cipher : Bytes → Bytes → Equiv.Perm Bytes}
    {mac : Bytes → Bytes → Bytes} (lawful : (threePoints cipher mac).Lawful) :
    (threePoints cipher mac).Complete where
  toLawful := lawful
  secret point := ⟨point, rfl⟩
  form := by
    intro rest point parsed
    simp only [threePoints, parseMultiple] at parsed
    split at parsed
    next found =>
      obtain rfl := Except.ok.inj parsed
      have listed := List.find?_some found
      rw [decide_eq_true_iff] at listed
      rcases listed with same | same
      · exact same.symm
      · cases same
    next => cases parsed
  permutes key iv blocks _ := (cipher key iv).apply_symm_apply blocks

def samplePlain : Bytes := bigEndian 10 0x12080a0461623a301001

/-- The blocks of `Encrypt`, and some with another filler. -/
def paddedBlocks : Bytes := samplePlain ++ [6, 6, 6, 6, 6, 6]

def filledBlocks : Bytes := samplePlain ++ [1, 2, 3, 4, 5, 6]

def paddedCipher : Bytes := bigEndian 16 0xeabd82399a95ee22fff54015d5d2928a

def filledCipher : Bytes := bigEndian 16 0x6060d51b4874701293696f78499fe035

def sampleBody (cipher : Bytes) : Bytes :=
  sampleIv ++ ciphCurveBytes ++ ciphCoordLength ++ multiplesX 3 ++ ciphCoordLength ++
    multiplesY 3 ++ cipher

def paddedMac : Bytes :=
  bigEndian 32 0x238a899e78f0517e2a3646f1de5809562b337fe67aa44d005123f45bbb8fb79e

def filledMac : Bytes :=
  bigEndian 32 0x551baa2fc92afd190f6407e294f54bd197694ea6ba41faf57a72b736fc17bc67

def sampleCipher (key iv : Bytes) : Equiv.Perm Bytes :=
  if key = requestKey.take 32 ∧ iv = sampleIv then
    (Equiv.swap paddedBlocks paddedCipher).trans (Equiv.swap filledBlocks filledCipher)
  else Equiv.refl _

def sampleMac (key message : Bytes) : Bytes :=
  if key = requestKey.drop 32 ∧ message = sampleBody paddedCipher then paddedMac
  else if key = requestKey.drop 32 ∧ message = sampleBody filledCipher then filledMac
  else List.replicate 32 0

theorem sampleCipher_complete : (threePoints sampleCipher sampleMac).Complete := by
  refine threePoints_complete (threePoints_lawful (fun key iv data => ?_) fun key message => ?_)
  · unfold sampleCipher
    split_ifs
    · rw [Equiv.trans_apply, length_swap (by decide +kernel), length_swap (by decide +kernel)]
    · rfl
  · unfold sampleMac
    split_ifs <;> rfl

/-- The text that `Encrypt` writes, and one with another filler, which is decrypted too. -/
theorem decrypt_iff_encrypted_sample :
    (∃ filler, Sealed (threePoints sampleCipher sampleMac) 0 (sampleBody paddedCipher ++ paddedMac)
        samplePlain 2 sampleIv filler ∧ addPKCSPadding samplePlain = samplePlain ++ filler) ∧
      decrypt (threePoints sampleCipher sampleMac) 0 (sampleBody filledCipher ++ filledMac) =
        .ok samplePlain := by
  refine ⟨((decrypt_iff_encrypted sampleCipher_complete).2 2 sampleIv rfl).mp ?_,
    (decrypt_iff_encrypted sampleCipher_complete).1.mpr
      ⟨2, sampleIv, [1, 2, 3, 4, 5, 6], rfl, ?_, ?_, ?_⟩⟩
  · exact congrArg Except.ok (by decide +kernel)
  · decide
  · exact ⟨rfl, by decide, by decide, by decide⟩
  · decide +kernel

end Sealed

end Lspd.Btceclegacy
