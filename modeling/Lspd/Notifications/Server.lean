import Lspd.Postgres.Notifications

/-! The two rpcs of the notifications server: a request is decrypted, decoded and
checked against the signature in it before the store is asked. -/

namespace Lspd.Lightning

/-- What `VerifyMessage` uses of other libraries. -/
structure Signatures (Point : Type) where
  zbase32Decode : String → Except String Bytes
  sha256 : Bytes → Bytes
  recoverCompact : Bytes → Bytes → Except String (Point × Bool)
  serializeCompressed : Point → Bytes

def signedMsgPrefix : Bytes := "Lightning Signed Message:".toUTF8.toList

namespace Signatures

variable {Point : Type} (l : Signatures Point)

def digest (message : Bytes) : Bytes := l.sha256 (l.sha256 (signedMsgPrefix ++ message))

/-- The key and the error; with an error the key is nil. -/
def verifyMessage (message : Bytes) (signature : String) : Option Point × Option String :=
  match l.zbase32Decode signature with
  | .error err => (none, some s!"failed to decode signature: {err}")
  | .ok sig =>
    match l.recoverCompact sig (l.digest message) with
    | .error _ => (none, some "invalid signature")
    | .ok (pubkey, wasCompressed) =>
      if wasCompressed then (some pubkey, none) else (none, some "invalid signature")

/-- The signature is one of a compressed key over the message. -/
def Signed (message : Bytes) (signature : String) (pubkey : Point) : Prop :=
  ∃ sig, l.zbase32Decode signature = .ok sig ∧
    l.recoverCompact sig (l.digest message) = .ok (pubkey, true)

theorem verifyMessage_cases (message : Bytes) (signature : String) :
    (∃ pubkey, l.Signed message signature pubkey ∧
      l.verifyMessage message signature = (some pubkey, none)) ∨
    (∀ pubkey, ¬ l.Signed message signature pubkey) ∧
      ∃ err, l.verifyMessage message signature = (none, some err) := by
  unfold verifyMessage Signed
  cases decoded : l.zbase32Decode signature with
  | error err => exact .inr ⟨by simp, _, rfl⟩
  | ok sig =>
    cases recovered : l.recoverCompact sig (l.digest message) with
    | error err => exact .inr ⟨by simp [recovered], _, by simp only [recovered]; rfl⟩
    | ok key =>
      obtain ⟨pubkey, wasCompressed⟩ := key
      cases wasCompressed with
      | false => exact .inr ⟨by simp [recovered], _, by simp only [recovered]; rfl⟩
      | true => exact .inl ⟨pubkey, ⟨sig, rfl, recovered⟩, by simp [recovered]⟩

variable {l} {message : Bytes} {signature : String} {one two : Point}

theorem Signed.unique (first : l.Signed message signature one)
    (second : l.Signed message signature two) : one = two := by
  obtain ⟨sig, decoded, recovered⟩ := first
  obtain ⟨other, again, found⟩ := second
  obtain rfl : sig = other := Except.ok.inj (decoded.symm.trans again)
  exact (Prod.ext_iff.mp (Except.ok.inj (recovered.symm.trans found))).1

end Signatures

end Lspd.Lightning

namespace Lspd.Notifications

open Lspd.Common Lspd.Lightning Lspd.Postgres.Notifications Lspd.Store

/-- The decoded message of either rpc; both have the same fields. -/
structure NotificationRequest where
  url : String
  signature : String

/-- The secret of the caller's node, and what the rpcs use of other libraries. -/
structure NotificationsServer (Secret Point : Type) where
  getNode : Except String Secret
  eciesDecrypt : Secret → Bytes → Except String Bytes
  unmarshal : Bytes → Except String NotificationRequest
  signatures : Signatures Point

/-- What a client gets for the store's answer, and the table. -/
def reply (result : Bool × Subscriptions) : Outcome Unit × Subscriptions :=
  (if result.1 then .value () else .error "internal error", result.2)

namespace NotificationsServer

variable {Secret Point : Type} (s : NotificationsServer Secret Point)

def request (blob : Bytes) : Except String NotificationRequest := do
  let eciesPrivateKey ← s.getNode
  let data ← (s.eciesDecrypt eciesPrivateKey blob).mapError
    fun err => s!"ecies.Decrypt({encodeToString blob}) error: {err}"
  (s.unmarshal data).mapError fun err => s!"proto.Unmarshal({encodeToString data}) error: {err}"

def verify (request : NotificationRequest) : Option Point × Option String :=
  s.signatures.verifyMessage request.url.toUTF8.toList request.signature

/-- `pubkey.SerializeCompressed()` reads the key behind the pointer. -/
def serializeCompressed : Option Point → Outcome Bytes
  | none => .panic
  | some pubkey => .value (s.signatures.serializeCompressed pubkey)

/-- `now` is the time the store reads, and `runs` whether its statement does. -/
def subscribeNotifications (subscriptions : Subscriptions) (now : Time) (runs : Bool)
    (blob : Bytes) : Outcome Unit × Subscriptions :=
  match s.request blob with
  | .error err => (.error err, subscriptions)
  | .ok request =>
    match s.verify request with
    | (pubkey, some err) =>
      -- the line that is logged here shows the key
      match s.serializeCompressed pubkey with
      | .panic => (.panic, subscriptions)
      | _ => (.error err, subscriptions)
    | (pubkey, none) =>
      match s.serializeCompressed pubkey with
      | .value compressed =>
        reply (register subscriptions (encodeToString compressed) request.url now runs)
      | _ => (.panic, subscriptions)

def unsubscribeNotifications (subscriptions : Subscriptions) (runs : Bool) (blob : Bytes) :
    Outcome Unit × Subscriptions :=
  match s.request blob with
  | .error err => (.error err, subscriptions)
  | .ok request =>
    match s.verify request with
    | (_, some err) => (.error err, subscriptions)
    | (pubkey, none) =>
      match s.serializeCompressed pubkey with
      | .value compressed =>
        reply (unsubscribe subscriptions (encodeToString compressed) request.url runs)
      | _ => (.panic, subscriptions)

/-- The blob holds a request for the url that is signed by the key with these
compressed bytes. -/
def Authenticates (blob compressed : Bytes) (url : String) : Prop :=
  ∃ request pubkey, s.request blob = .ok request ∧ request.url = url ∧
    s.signatures.Signed request.url.toUTF8.toList request.signature pubkey ∧
    compressed = s.signatures.serializeCompressed pubkey

/-- What is expected of a handler that is there to do `act`: it replies or reports an
error, a blob that fails a check changes nothing, and any other one changes at most
the row of its own key and url. -/
structure Answers (blob : Bytes) (subscriptions : Subscriptions)
    (act : Bytes → String → Bool × Subscriptions) (result : Outcome Unit × Subscriptions) :
    Prop where
  returns : result.1 ≠ .panic
  refuses : (∀ compressed url, ¬ s.Authenticates blob compressed url) →
    (∃ err, result.1 = .error err) ∧ result.2 = subscriptions
  acts : ∀ compressed url, s.Authenticates blob compressed url →
    result = reply (act compressed url) ∧
      ∀ other, other ≠ (compressed, url) → result.2.find? other = subscriptions.find? other

/-- A blob that holds a request at all holds one with a valid signature. -/
def Verifies (blob : Bytes) : Prop :=
  ∀ request, s.request blob = .ok request →
    ∃ pubkey, s.signatures.Signed request.url.toUTF8.toList request.signature pubkey

end NotificationsServer

theorem find?_register {subscriptions : Subscriptions} {compressed : Bytes} {url : String}
    {now : Time} {runs : Bool} {other : Bytes × String} (different : other ≠ (compressed, url)) :
    (register subscriptions (encodeToString compressed) url now runs).2.find? other =
      subscriptions.find? other := by
  rw [register, decodeString_encodeToString]
  cases runs with
  | false => rfl
  | true => exact (Table.find?_upsert ..).trans (if_neg different)

theorem find?_unsubscribe {subscriptions : Subscriptions} {compressed : Bytes} {url : String}
    {runs : Bool} {other : Bytes × String} (different : other ≠ (compressed, url)) :
    (unsubscribe subscriptions (encodeToString compressed) url runs).2.find? other =
      subscriptions.find? other := by
  rw [unsubscribe, decodeString_encodeToString]
  cases runs with
  | false => rfl
  | true => exact (Table.find?_delete ..).trans (if_neg different)

theorem reply_ne_panic (result : Bool × Subscriptions) : (reply result).1 ≠ .panic := by
  obtain ⟨ok, table⟩ := result
  cases ok <;> exact nofun

namespace NotificationsServer

section answers

variable {Secret Point : Type} {s : NotificationsServer Secret Point} {blob : Bytes}
  {subscriptions : Subscriptions} {now : Time} {runs : Bool} {request : NotificationRequest}
  {pubkey : Point} {act : Bytes → String → Bool × Subscriptions}

/-- A handler that refuses a blob which authenticates nothing. -/
theorem Answers.of_error {err : String} (none : ∀ compressed url, ¬ s.Authenticates blob compressed url) :
    s.Answers blob subscriptions act (.error err, subscriptions) where
  returns := nofun
  refuses _ := ⟨⟨err, rfl⟩, rfl⟩
  acts compressed url held := absurd held (none compressed url)

/-- A handler that acts for the key that signed the request. -/
theorem Answers.of_signed (opened : s.request blob = .ok request)
    (signed : s.signatures.Signed request.url.toUTF8.toList request.signature pubkey)
    (frame : ∀ compressed url other, other ≠ (compressed, url) →
      (act compressed url).2.find? other = subscriptions.find? other) :
    s.Answers blob subscriptions act
      (reply (act (s.signatures.serializeCompressed pubkey) request.url)) where
  returns := reply_ne_panic _
  refuses none := absurd ⟨request, pubkey, opened, rfl, signed, rfl⟩ (none _ _)
  acts := by
    rintro compressed url ⟨other, signer, again, rfl, valid, rfl⟩
    obtain rfl : request = other := Except.ok.inj (opened.symm.trans again)
    obtain rfl := signed.unique valid
    exact ⟨rfl, frame _ _⟩

theorem not_authenticates_of_error {err : String} (failed : s.request blob = .error err)
    (compressed : Bytes) (url : String) : ¬ s.Authenticates blob compressed url := by
  rintro ⟨request, _, opened, _⟩
  cases failed.symm.trans opened

theorem not_authenticates_of_unsigned (opened : s.request blob = .ok request)
    (unsigned : ∀ pubkey,
      ¬ s.signatures.Signed request.url.toUTF8.toList request.signature pubkey)
    (compressed : Bytes) (url : String) : ¬ s.Authenticates blob compressed url := by
  rintro ⟨other, pubkey, again, _, signed, _⟩
  obtain rfl : request = other := Except.ok.inj (opened.symm.trans again)
  exact unsigned pubkey signed

theorem unsubscribeNotifications_answers :
    s.Answers blob subscriptions
      (fun compressed url => unsubscribe subscriptions (encodeToString compressed) url runs)
      (s.unsubscribeNotifications subscriptions runs blob) := by
  unfold unsubscribeNotifications
  cases opened : s.request blob with
  | error err => exact .of_error (not_authenticates_of_error opened)
  | ok request =>
    rcases s.signatures.verifyMessage_cases request.url.toUTF8.toList request.signature with
      ⟨pubkey, signed, verified⟩ | ⟨unsigned, err, failed⟩
    · simp only [verify, verified, serializeCompressed]
      exact Answers.of_signed opened signed fun _ _ _ => find?_unsubscribe
    · simp only [verify, failed]
      exact .of_error (not_authenticates_of_unsigned opened unsigned)

theorem subscribeNotifications_answers (verifies : s.Verifies blob) :
    s.Answers blob subscriptions
      (fun compressed url => register subscriptions (encodeToString compressed) url now runs)
      (s.subscribeNotifications subscriptions now runs blob) := by
  unfold subscribeNotifications
  cases opened : s.request blob with
  | error err => exact .of_error (not_authenticates_of_error opened)
  | ok request =>
    obtain ⟨signer, valid⟩ := verifies request opened
    rcases s.signatures.verifyMessage_cases request.url.toUTF8.toList request.signature with
      ⟨pubkey, signed, verified⟩ | ⟨unsigned, _⟩
    · simp only [verify, verified, serializeCompressed]
      exact Answers.of_signed opened signed fun _ _ _ => find?_register
    · exact absurd valid (unsigned signer)

/-- The log line of a failed check reads the nil key. -/
theorem subscribeNotifications_unsigned (opened : s.request blob = .ok request)
    (unsigned : ∀ pubkey,
      ¬ s.signatures.Signed request.url.toUTF8.toList request.signature pubkey) :
    s.subscribeNotifications subscriptions now runs blob = (.panic, subscriptions) := by
  rcases s.signatures.verifyMessage_cases request.url.toUTF8.toList request.signature with
    ⟨pubkey, signed, _⟩ | ⟨_, err, failed⟩
  · exact absurd signed (unsigned pubkey)
  · simp only [subscribeNotifications, opened, verify, failed, serializeCompressed]

end answers

/-- Both rpcs answer a blob as they should exactly if no request with an invalid
signature is in it. -/
theorem rpcs_answer_iff {Secret Point : Type} (s : NotificationsServer Secret Point)
    (subscriptions : Subscriptions) (now : Time) (runs : Bool) (blob : Bytes) :
    s.Answers blob subscriptions
        (fun compressed url => register subscriptions (encodeToString compressed) url now runs)
        (s.subscribeNotifications subscriptions now runs blob) ∧
      s.Answers blob subscriptions
        (fun compressed url => unsubscribe subscriptions (encodeToString compressed) url runs)
        (s.unsubscribeNotifications subscriptions runs blob) ↔
    s.Verifies blob := by
  constructor
  · rintro ⟨subscribes, _⟩ request opened
    by_contra unsigned
    have panics : s.subscribeNotifications subscriptions now runs blob = _ :=
      subscribeNotifications_unsigned opened (not_exists.mp unsigned)
    exact subscribes.returns (congrArg Prod.fst panics)
  · intro verifies
    exact ⟨subscribeNotifications_answers verifies, unsubscribeNotifications_answers⟩

end NotificationsServer

/-- Requests that are not encrypted, for a url, with a signature that is no zbase32. -/
def sampleServer : NotificationsServer Unit Unit where
  getNode := .ok ()
  eciesDecrypt _ blob := .ok blob
  unmarshal _ := .ok ⟨"hook", "0"⟩
  signatures :=
    { zbase32Decode := fun text =>
        match text.toList.findIdx? fun char => char ∉ "ybndrfg8ejkmcpqxot1uwisza345h769".toList with
        | some position => .error s!"illegal z-base-32 data at input byte {position}"
        | none => .ok []
      sha256 := id
      recoverCompact := fun sig _ =>
        if sig.length = 65 then .ok ((), true) else .error "invalid compact signature size"
      serializeCompressed := fun _ => List.replicate 33 2 }

/-- The signature cannot be decoded: one handler reports it, the other one panics. -/
theorem malformed_signature_panics :
    sampleServer.subscribeNotifications .empty 0 true [] = (.panic, .empty) ∧
      sampleServer.unsubscribeNotifications .empty true [] =
        (.error "failed to decode signature: illegal z-base-32 data at input byte 0", .empty) :=
  ⟨rfl, rfl⟩

end Lspd.Notifications
