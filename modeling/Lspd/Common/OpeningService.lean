import Lspd.Codec.JsonString
import Lspd.Common.Intercept
import Lspd.Common.Strconv

/-! The fee parameters a client can choose from, and the promise that makes the
chosen ones binding. -/

namespace Lspd.Common

open Lspd.Codec Lspd.Lightning

structure OpeningFeeParamsSetting where
  validity : Time
  params : OpeningFeeParams

/-- What a setting fixes of an entry in the menu. -/
def OpeningFeeParams.fees (params : OpeningFeeParams) : UInt64 × UInt32 × UInt32 × UInt32 :=
  (params.minFeeMsat, params.proportional, params.minLifetime, params.maxClientToSelfDelay)

/-- `sort.Slice`, which is not stable: some order that agrees with the comparison. -/
structure SortSlice {α : Type} (less : α → α → Bool) where
  sort : List α → List α
  perm : ∀ list, (sort list).Perm list
  sorted : ∀ list, (sort list).Pairwise fun earlier later => less later earlier = false

/-- The comparison of the menu. -/
def feeLess (one two : OpeningFeeParams) : Bool :=
  if one.minFeeMsat = two.minFeeMsat then one.proportional < two.proportional
  else one.minFeeMsat < two.minFeeMsat

/-- How `json.Marshal` writes a character of a string. -/
def escapeChar (char : Char) : List Char :=
  if char = '"' ∨ char = '\\' then ['\\', char]
  else if char = '\x08' then ['\\', 'b']
  else if char = '\x0c' then ['\\', 'f']
  else if char = '\n' then ['\\', 'n']
  else if char = '\r' then ['\\', 'r']
  else if char = '\t' then ['\\', 't']
  else if char.toNat < 0x20 ∨ char = '<' ∨ char = '>' ∨ char = '&' ∨ char.toNat = 0x2028 ∨
      char.toNat = 0x2029 then unicodeEscape char.toNat
  else [char]

def marshalString (text : String) : String :=
  "\"" ++ String.ofList (text.toList.flatMap escapeChar) ++ "\""

/-- What an escaped character stands for is the character. -/
theorem spells_escapeChar (char : Char) {rest : List Char} {later : List Piece}
    (more : Spells rest later) : Spells (escapeChar char ++ rest) (.char char :: later) := by
  unfold escapeChar
  split_ifs with self backspace formfeed newline carriage tab special
  · rcases self with rfl | rfl
    · exact .simple rfl more
    · exact .simple rfl more
  · exact backspace ▸ .simple rfl more
  · exact formfeed ▸ .simple rfl more
  · exact newline ▸ .simple rfl more
  · exact carriage ▸ .simple rfl more
  · exact tab ▸ .simple rfl more
  · have small : char.toNat < 65536 := by
      rcases special with control | rfl | rfl | rfl | line | paragraph
      · omega
      · decide
      · decide
      · decide
      · omega
      · omega
    exact more.escaped small
  · refine .plain ?_ more
    simp only [not_or] at self special
    simp [plain, self, Nat.not_lt.mp special.1]

theorem spells_escape (text : List Char) : Spells (text.flatMap escapeChar) (text.map .char) := by
  induction text with
  | nil => exact .nil
  | cons char rest ih => exact spells_escapeChar char ih

theorem unquote_escape (text : List Char) : unquote (text.flatMap escapeChar) = some text := by
  rw [(spells_escape text).unquote, combine_chars]

/-- The json array of the values a promise is about, in a fixed order. -/
def paramsBlob (params : OpeningFeeParams) : String :=
  "[" ++ formatUint params.minFeeMsat ++ "," ++ formatUint params.proportional.toUInt64 ++ "," ++
    marshalString params.validUntil ++ "," ++ formatUint params.minLifetime.toUInt64 ++ "," ++
    formatUint params.maxClientToSelfDelay.toUInt64 ++ "]"

/-- The store, the clock's texts and the signatures the opening service works with.
`sha256` is over the UTF-8 bytes of a text. -/
structure OpeningService (Key Point : Type) where
  getFeeParamsSettings : String → Except String (List OpeningFeeParamsSetting)
  time : TimeTexts
  sha256 : String → Bytes
  signCompact : Key → Bytes → Bytes
  recoverCompact : Bytes → Bytes → Except String Point
  sortSlice : SortSlice feeLess

namespace OpeningService

variable {Key Point : Type} (s : OpeningService Key Point)

/-- The array always has a json text, so this cannot fail. -/
def paramsHash (params : OpeningFeeParams) : Bytes := s.sha256 (paramsBlob params)

def createPromise (lspPrivateKey : Key) (params : OpeningFeeParams) : String :=
  encodeToString (s.signCompact lspPrivateKey (s.paramsHash params))

/-- Whether `verifyPromise` returns nil. -/
def verifyPromise [DecidableEq Point] (lspPublicKey : Point) (params : OpeningFeeParams) : Bool :=
  match decodeString params.promise with
  | none => false
  | some sig =>
    match s.recoverCompact sig (s.paramsHash params) with
    | .error _ => false
    | .ok pub => lspPublicKey = pub

/-- The entry a setting becomes at an instant. -/
def entry (privateKey : Key) (now : Time) (setting : OpeningFeeParamsSetting) : OpeningFeeParams :=
  let params : OpeningFeeParams :=
    { minFeeMsat := setting.params.minFeeMsat
      proportional := setting.params.proportional
      validUntil := s.time.format (now + setting.validity)
      minLifetime := setting.params.minLifetime
      maxClientToSelfDelay := setting.params.maxClientToSelfDelay
      promise := "" }
  { params with promise := s.createPromise privateKey params }

/-- The clock is read once for each setting. -/
def getFeeParamsMenu (clock : Nat → Time) (token : String) (privateKey : Key) :
    Except String (List OpeningFeeParams) :=
  match s.getFeeParamsSettings token with
  | .error _ => .error "failed to get opening_fee_params"
  | .ok settings =>
    .ok (s.sortSlice.sort (settings.mapIdx fun index => s.entry privateKey (clock index)))

def validateOpeningFeeParams [DecidableEq Point] (now : Time) (params : OpeningFeeParams)
    (publicKey : Point) : Bool :=
  s.verifyPromise publicKey params &&
    match s.time.parse params.validUntil with
    | none => false
    | some validUntil => ¬ validUntil < now

/-- Only the minimum fees are compared. -/
def isCurrentChainFeeCheaper (token : String) (params : OpeningFeeParams) : Bool :=
  match s.getFeeParamsSettings token with
  | .error _ => false
  | .ok settings => settings.any fun setting => setting.params.minFeeMsat ≤ params.minFeeMsat

section Promises

variable {s} {privateKey : Key} {publicKey : Point} {setting : OpeningFeeParamsSetting} {now : Time}

/-- What a key signs is recovered as the public key that belongs to it. -/
def Signs (s : OpeningService Key Point) (privateKey : Key) (publicKey : Point) : Prop :=
  ∀ hash, s.recoverCompact (s.signCompact privateKey hash) hash = .ok publicKey

/-- The promise does not count towards its own hash. -/
theorem paramsHash_entry : s.paramsHash (s.entry privateKey now setting) =
    s.paramsHash { s.entry privateKey now setting with promise := "" } := rfl

theorem verifyPromise_entry [DecidableEq Point] (signs : s.Signs privateKey publicKey) :
    s.verifyPromise publicKey (s.entry privateKey now setting) = true := by
  have decoded : decodeString (s.entry privateKey now setting).promise =
      some (s.signCompact privateKey (s.paramsHash (s.entry privateKey now setting))) := by
    rw [paramsHash_entry]
    exact decodeString_encodeToString _
  rw [verifyPromise, decoded]
  simp [signs _]

/-- An entry is valid up to the instant its text stands for. -/
theorem validate_entry [DecidableEq Point] {validUntil later : Time}
    (signs : s.Signs privateKey publicKey)
    (parsed : s.time.parse (s.time.format (now + setting.validity)) = some validUntil) :
    s.validateOpeningFeeParams later (s.entry privateKey now setting) publicKey = true ↔
      later ≤ validUntil := by
  have text : (s.entry privateKey now setting).validUntil =
      s.time.format (now + setting.validity) := rfl
  simp [validateOpeningFeeParams, verifyPromise_entry signs, text, parsed]

end Promises

section Menu

variable {s} {clock : Nat → Time} {token : String} {privateKey : Key}
  {settings : List OpeningFeeParamsSetting} {menu : List OpeningFeeParams}

theorem perm_of_menu (stored : s.getFeeParamsSettings token = .ok settings)
    (built : s.getFeeParamsMenu clock token privateKey = .ok menu) :
    menu.Perm (settings.mapIdx fun index => s.entry privateKey (clock index)) := by
  rw [getFeeParamsMenu, stored] at built
  obtain rfl := Except.ok.inj built
  exact s.sortSlice.perm _

theorem sorted_of_menu (built : s.getFeeParamsMenu clock token privateKey = .ok menu) :
    menu.Pairwise fun earlier later => feeLess later earlier = false := by
  rw [getFeeParamsMenu] at built
  split at built
  · cases built
  · obtain rfl := Except.ok.inj built
    exact s.sortSlice.sorted _

theorem exists_entry_of_mem_menu (stored : s.getFeeParamsSettings token = .ok settings)
    (built : s.getFeeParamsMenu clock token privateKey = .ok menu) {params : OpeningFeeParams}
    (member : params ∈ menu) :
    ∃ index setting, settings[index]? = some setting ∧
      params = s.entry privateKey (clock index) setting := by
  have among := (perm_of_menu stored built).mem_iff.mp member
  obtain ⟨index, bound, rfl⟩ := List.mem_mapIdx.mp among
  exact ⟨index, settings[index], List.getElem?_eq_getElem bound, rfl⟩

/-- The menu has the fees of the settings. -/
theorem fees_of_menu (stored : s.getFeeParamsSettings token = .ok settings)
    (built : s.getFeeParamsMenu clock token privateKey = .ok menu) :
    (menu.map OpeningFeeParams.fees).Perm (settings.map fun setting => setting.params.fees) := by
  have entries := (perm_of_menu stored built).map OpeningFeeParams.fees
  have same : (settings.mapIdx fun index => s.entry privateKey (clock index)).map
      OpeningFeeParams.fees = settings.map fun setting => setting.params.fees := by
    refine List.ext_getElem? fun index => ?_
    simp only [List.getElem?_map, List.getElem?_mapIdx, Option.map_map]
    rfl
  rwa [same] at entries

end Menu

end OpeningService

/-- Whether one entry comes before another by the minimum fee and then the rate. -/
theorem feeLess_eq_false {one two : OpeningFeeParams} :
    feeLess two one = false ↔ one.minFeeMsat < two.minFeeMsat ∨
      one.minFeeMsat = two.minFeeMsat ∧ one.proportional ≤ two.proportional := by
  unfold feeLess
  split_ifs with same
  · simp [same]
  · rw [decide_eq_false_iff_not, UInt64.not_lt]
    have different : one.minFeeMsat ≠ two.minFeeMsat := fun equal => same equal.symm
    simp only [different, false_and, or_false]
    exact ⟨fun ahead => UInt64.lt_of_le_of_ne ahead different, UInt64.le_of_lt⟩

end Lspd.Common
