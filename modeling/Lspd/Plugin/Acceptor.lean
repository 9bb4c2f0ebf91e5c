import Lspd.Plugin.Json

/-! How the plugin answers `openchannel` and `openchannel2` requests. What the accept
script evaluates to is put into the response as it is, and is looked at only when the
response is written. Errors of the script go to the log, which is a pipe to a scanner. -/

namespace Lspd.Plugin

open Lspd.Codec Lspd.Common

/-- A request with the texts of its raw messages; without params the text is empty. -/
structure Incoming where
  id : Option RawMessage
  method : String
  jsonRpc : String
  params : GoString

/-- What a script evaluates to. -/
inductive Evaluation where
  | error (message : GoString)
  | other
  | string (text : GoString)

/-- The parts of the libraries the handler uses: `unmarshalOpenChannel` finds the
member of the params that has the name of the method, `eval` runs a script with the two
variables. -/
structure Scripting where
  unmarshalOpenChannel : String → GoString → Except String GoString
  eval : String → String → GoString → Evaluation

/-- The text of an object with a single member. -/
def verdictText (verdict : String) : GoString :=
  runes.objectText [(goString "result", marshalText (goString verdict))]

/-- The first result is what is answered, the second one is only logged. -/
def channelAcceptor (scripting : Scripting) (acceptScript method : String)
    (openChannel : GoString) : GoString × Option GoString :=
  if acceptScript = "" then (verdictText "continue", none)
  else
    match scripting.eval acceptScript method openChannel with
    | .error err => (verdictText "reject", some err)
    | .other => (verdictText "reject", some (goString "not a string"))
    | .string text => (text, none)

section pipe

/-- The number of bytes. -/
def Rune.size : Rune → Nat
  | .char letter => letter.utf8Size
  | .stray _ => 1

/-- The size of the buffer of a `bufio.Scanner`. -/
def maxScanTokenSize : Nat := 64 * 1024

/-- Whether a scanner of lines that holds some bytes of a line gets through the rest of a
text. It gives up on a line that fills the buffer before its newline. -/
def scans (held : Nat) : GoString → Bool
  | [] => true
  | .char '\n' :: rest => scans 0 rest
  | rune :: rest =>
    decide (held + rune.size < maxScanTokenSize) && scans (held + rune.size) rest

/-- The date and the time at the start of a text in the log. -/
def stampSize : Nat := 20

end pipe

/-- What was written to cln, whether the plugin was not stopped, and whether the scanner of
the log is still at work. It writes the lines to cln in a goroutine of its own. -/
structure ClnPlugin where
  channelAcceptScript : String
  written : List GoString
  running : Bool
  scanning : Bool

namespace ClnPlugin

/-- `log.Printf`. An error is a call that blocks for good, and the state it leaves: nobody
reads the pipe once the scanner has given up. -/
def printf (c : ClnPlugin) (text : GoString) : Except ClnPlugin ClnPlugin :=
  if c.scanning then
    if scans stampSize text then .ok c else .error { c with scanning := false }
  else .error c

/-- A message that has no json text stops the plugin, after a short line to the log. -/
def sendToCln (c : ClnPlugin) (marshalled : Option GoString) : Except ClnPlugin ClnPlugin :=
  match marshalled with
  | none => if c.scanning then .ok { c with running := false } else .error c
  | some data => .ok { c with written := c.written ++ [data] }

def idText (id : Option RawMessage) : GoString :=
  match id with
  | none => goString "null"
  | some id => id.text

def specVersion : GoString := marshalText (goString "2.0")

def marshalResponse (id : Option RawMessage) (result : GoString) : Option GoString := do
  let id ← marshalRaw (idText id)
  let result ← marshalRaw result
  return runes.objectText
    [(goString "id", id), (goString "jsonrpc", specVersion), (goString "result", result)]

def parseError : GoString := goString "-32700"

def marshalError (id : Option RawMessage) (code message : GoString) : Option GoString := do
  let id ← marshalRaw (idText id)
  let error := runes.objectText [(goString "code", code), (goString "message", marshalText message)]
  return runes.objectText
    [(goString "id", id), (goString "jsonrpc", specVersion), (goString "error", error)]

def log (c : ClnPlugin) (level : String) (message : GoString) : Except ClnPlugin ClnPlugin :=
  let params := runes.objectText
    [(goString "level", marshalText (goString level)), (goString "message", marshalText message)]
  c.sendToCln <| some <| runes.objectText
    [(goString "method", marshalText (goString "log")), (goString "jsonrpc", specVersion),
      (goString "params", params)]

def sendError (c : ClnPlugin) (id : Option RawMessage) (code message : GoString) :
    Except ClnPlugin ClnPlugin := do
  let c ← c.log "error" message
  c.sendToCln (marshalError id code message)

/-- The line of the log for an error of the script. -/
def acceptorError (request : Incoming) (err : GoString) : GoString :=
  goString "channelAcceptor error - request: &\x7b" ++ request.id.elim [] RawMessage.text ++
    goString " " ++ goString request.method ++ goString " " ++ goString request.jsonRpc ++
    goString " " ++ request.params ++ goString "\x7d error: " ++ err

def handleOpenChannel (c : ClnPlugin) (scripting : Scripting) (request : Incoming) :
    Except ClnPlugin ClnPlugin :=
  match scripting.unmarshalOpenChannel request.method request.params with
  | .error err =>
    c.sendError request.id parseError
      (goString "Failed to unmarshal openchannel params:" ++ goString err ++ goString " [" ++
        request.params ++ goString "]")
  | .ok p => do
    let (result, err) := channelAcceptor scripting c.channelAcceptScript request.method p
    let c ← match err with
      | none => .ok c
      | some err => c.printf (acceptorError request err)
    c.sendToCln (marshalResponse request.id result)

end ClnPlugin

section specification

def verdict (text : String) : Json := .object [("result".toList, .string text.toList)]

/-- What should be answered: the json the script evaluates to, or else a rejection. -/
def expectedResult (acceptScript : String) (evaluation : Evaluation) : Json :=
  if acceptScript = "" then verdict "continue"
  else
    match evaluation with
    | .string text =>
      if isUnicode text then (runes.parse text).getD (verdict "reject") else verdict "reject"
    | _ => verdict "reject"

def idValue : Option RawMessage → Json
  | none => .null
  | some id => id.value

/-- The call returns, and all it has done is to write one line, the response to a request. -/
def Responds (c : ClnPlugin) (call : Except ClnPlugin ClnPlugin) (id : Option RawMessage)
    (result : Json) : Prop :=
  ∃ text, call = .ok { c with written := c.written ++ [text] } ∧ isUnicode text = true ∧
    .char '\n' ∉ text ∧ runes.parse text = some (.object [("id".toList, idValue id),
      ("jsonrpc".toList, .string "2.0".toList), ("result".toList, result)])

/-- The log takes a text. -/
def ClnPlugin.Logs (c : ClnPlugin) (text : GoString) : Prop :=
  c.scanning = true ∧ scans stampSize text = true

/-- There is no script, or it evaluates to a json text, or the log takes the error. -/
def Presentable (c : ClnPlugin) (request : Incoming) (evaluation : Evaluation) : Prop :=
  c.channelAcceptScript = "" ∨
    match evaluation with
    | .error err => c.Logs (ClnPlugin.acceptorError request err)
    | .other => c.Logs (ClnPlugin.acceptorError request (goString "not a string"))
    | .string text => isUnicode text = true ∧ (unmarshal text).isSome

end specification

section texts

theorem parse_verdictText (text : String) : runes.parse (verdictText text) = some (verdict text) :=
  Alphabet.parse_objectText (.cons (means_goString (by decide) (parse_marshalText text)) .nil)
    (List.cons_ne_nil _ _)

theorem isUnicode_verdictText (text : String) : isUnicode (verdictText text) = true := by
  refine isUnicode_objectText ?_
  simp [isUnicode_goString, isUnicode_marshalText]

end texts

namespace ClnPlugin

variable {id : Option RawMessage} {result : GoString} {value : Json}

theorem exists_marshalRaw_id (id : Option RawMessage) :
    ∃ out, marshalRaw (idText id) = some out ∧ runes.parse out = some (idValue id) ∧
      isUnicode out = true ∧ .char '\n' ∉ out := by
  have known : unmarshal (idText id) = some (idValue id) ∧ isUnicode (idText id) = true := by
    cases id with
    | none => exact ⟨rfl, by decide⟩
    | some id => exact ⟨id.parsed, id.unicode⟩
  obtain ⟨parsed, unicode⟩ := known
  obtain ⟨out, marshalled⟩ := exists_marshalRaw parsed
  obtain ⟨unbroken, same, other, found, kept⟩ := marshalRaw_spec marshalled
  obtain rfl := Option.some.inj (found.symm.trans parsed)
  exact ⟨out, marshalled, kept, same.mpr unicode, unbroken⟩

theorem marshalResponse_eq_none (id : Option RawMessage) {result : GoString}
    (refused : unmarshal result = none) : marshalResponse id result = none := by
  obtain ⟨idOut, idMarshalled, _⟩ := exists_marshalRaw_id id
  have raw : marshalRaw result = none := by simp [marshalRaw, refused]
  rw [marshalResponse, idMarshalled, raw]
  rfl

/-- The text of a response, if the result has one. -/
theorem marshalResponse_eq (id : Option RawMessage) {result out : GoString}
    (marshalled : marshalRaw result = some out) :
    ∃ text, marshalResponse id result = some text ∧ .char '\n' ∉ text ∧
      (isUnicode text = true ↔ isUnicode out = true) ∧
      ∀ value, runes.parse out = some value → runes.parse text =
        some (.object [("id".toList, idValue id), ("jsonrpc".toList, .string "2.0".toList),
          ("result".toList, value)]) := by
  obtain ⟨idOut, idMarshalled, idParsed, idUnicode, idUnbroken⟩ := exists_marshalRaw_id id
  have unbroken := (marshalRaw_spec marshalled).1
  refine ⟨runes.objectText [(goString "id", idOut), (goString "jsonrpc", specVersion),
    (goString "result", out)], ?_, ?_, ?_, ?_⟩
  · rw [marshalResponse, idMarshalled, marshalled]
    rfl
  · refine unbroken_objectText ?_
    simp only [List.forall_mem_cons]
    exact ⟨⟨by decide, idUnbroken⟩, ⟨by decide, by decide⟩, ⟨by decide, unbroken⟩,
      List.forall_mem_nil _⟩
  · constructor
    · intro unicode
      rw [isUnicode_iff] at unicode ⊢
      intro rune member
      exact unicode rune (Alphabet.mem_objectText (.tail _ (.tail _ (.head _))) member)
    · intro unicode
      refine isUnicode_objectText ?_
      have version : isUnicode specVersion = true := isUnicode_marshalText "2.0"
      simp [isUnicode_goString, idUnicode, version, unicode]
  · intro value parsed
    have idMeans : runes.Means (goString "id", idOut) ("id".toList, idValue id) :=
      means_goString (by decide) idParsed
    have versionMeans : runes.Means (goString "jsonrpc", specVersion)
        ("jsonrpc".toList, .string "2.0".toList) :=
      means_goString (by decide) (parse_marshalText "2.0")
    have resultMeans : runes.Means (goString "result", out) ("result".toList, value) :=
      means_goString (by decide) parsed
    exact Alphabet.parse_objectText (.cons idMeans (.cons versionMeans (.cons resultMeans .nil)))
      (List.cons_ne_nil _ _)

/-- A response goes out as it should exactly if its result is json in valid UTF-8. -/
theorem responds_iff (c : ClnPlugin) (id : Option RawMessage) (result : GoString) (value : Json) :
    Responds c (c.sendToCln (marshalResponse id result)) id value ↔
      isUnicode result = true ∧ unmarshal result = some value := by
  cases accepted : unmarshal result with
  | none =>
    rw [marshalResponse_eq_none id accepted]
    constructor
    · rintro ⟨text, written, _⟩
      unfold sendToCln at written
      split_ifs at written
      have lines := congrArg ClnPlugin.written (Except.ok.inj written)
      exact absurd lines (by simp)
    · nofun
  | some found =>
    obtain ⟨out, marshalled⟩ := exists_marshalRaw accepted
    obtain ⟨text, written, unbroken, unicode, parse⟩ := marshalResponse_eq id marshalled
    obtain ⟨_, encoding, other, parsed, kept⟩ := marshalRaw_spec marshalled
    obtain rfl := Option.some.inj (parsed.symm.trans accepted)
    rw [written]
    constructor
    · rintro ⟨other, appended, plain, _, object⟩
      obtain rfl : text = other := by simpa [sendToCln] using appended
      rw [parse _ kept] at object
      simp only [Option.some.injEq, Json.object.injEq, List.cons.injEq, Prod.mk.injEq, true_and,
        and_true] at object
      exact ⟨encoding.mp (unicode.mp plain), congrArg some object⟩
    · rintro ⟨plain, same⟩
      obtain rfl := Option.some.inj same
      exact ⟨text, rfl, unicode.mpr (encoding.mpr plain), unbroken, parse _ kept⟩

theorem responds_verdict (c : ClnPlugin) (id : Option RawMessage) {verdict : String}
    (shallow : runes.depth (verdictText verdict) ≤ maxNestingDepth) :
    Responds c (c.sendToCln (marshalResponse id (verdictText verdict))) id (Plugin.verdict verdict) :=
  (responds_iff ..).mpr ⟨isUnicode_verdictText verdict,
    unmarshal_eq_some.mpr ⟨shallow, parse_verdictText verdict⟩⟩

/-- After an error the request is rejected exactly if the log takes the error. -/
theorem responds_printf_iff (c : ClnPlugin) (id : Option RawMessage) (text : GoString) :
    Responds c (c.printf text >>= fun c => c.sendToCln (marshalResponse id (verdictText "reject")))
      id (verdict "reject") ↔ c.Logs text := by
  unfold printf Logs
  split_ifs with scanning fits
  · exact iff_of_true (responds_verdict c id (by decide)) ⟨scanning, fits⟩
  · refine iff_of_false ?_ fun logs => fits logs.2
    rintro ⟨_, ⟨⟩, _⟩
  · refine iff_of_false ?_ fun logs => scanning logs.1
    rintro ⟨_, ⟨⟩, _⟩

/-- A request is answered with what the script says, or with a rejection, exactly if the
script does not evaluate to a string that is no json text and the log takes its error. -/
theorem handleOpenChannel_responds_iff (c : ClnPlugin) (scripting : Scripting)
    (request : Incoming) {openChannel : GoString}
    (parses : scripting.unmarshalOpenChannel request.method request.params = .ok openChannel) :
    Responds c (c.handleOpenChannel scripting request) request.id
        (expectedResult c.channelAcceptScript
          (scripting.eval c.channelAcceptScript request.method openChannel)) ↔
      Presentable c request
        (scripting.eval c.channelAcceptScript request.method openChannel) := by
  simp only [handleOpenChannel, parses, channelAcceptor, expectedResult, Presentable]
  by_cases empty : c.channelAcceptScript = ""
  · simp only [empty, if_true, true_or, iff_true]
    exact responds_verdict c request.id (by decide)
  · simp only [empty, if_false, false_or]
    cases scripting.eval c.channelAcceptScript request.method openChannel with
    | error err => exact responds_printf_iff c request.id (acceptorError request err)
    | other => exact responds_printf_iff c request.id (acceptorError request (goString "not a string"))
    | string text =>
      refine (responds_iff c request.id text _).trans ?_
      constructor
      · rintro ⟨plain, parsed⟩
        exact ⟨plain, by rw [parsed]; rfl⟩
      · rintro ⟨plain, parsed⟩
        obtain ⟨value, parsed⟩ := Option.isSome_iff_exists.mp parsed
        exact ⟨plain, by simp [plain, parsed, (unmarshal_eq_some.mp parsed).2]⟩

/-- The params of a request with a number for the channel. -/
def sampleParams (method : String) : GoString :=
  runes.objectText [(goString method, goString "1")]

/-- A script that rejects one kind of request, and for the other one evaluates to a word
that is not json. -/
def sampleScript : String :=
  "'\x7b\"result\":\"reject\"\x7d' if method == 'openchannel' else 'yes'"

def sampleScripting : Scripting where
  unmarshalOpenChannel method params :=
    if params = sampleParams method then .ok (goString "1") else .error "unexpected end of JSON input"
  eval _ method _ :=
    if method = "openchannel" then .string (verdictText "reject") else .string (goString "yes")

def samplePlugin : ClnPlugin := ⟨sampleScript, [], true, true⟩

def sampleRequest (method : String) : Incoming :=
  ⟨none, method, "2.0", sampleParams method⟩

theorem handleOpenChannel_responds_sample :
    Responds samplePlugin
      (samplePlugin.handleOpenChannel sampleScripting (sampleRequest "openchannel")) none
      (verdict "reject") := by
  have parses : sampleScripting.unmarshalOpenChannel "openchannel" (sampleParams "openchannel") =
      .ok (goString "1") := by simp [sampleScripting]
  have presentable : Presentable samplePlugin (sampleRequest "openchannel")
      (.string (verdictText "reject")) := by
    have parsed := unmarshal_eq_some.mpr ⟨by decide, parse_verdictText "reject"⟩
    exact .inr ⟨isUnicode_verdictText "reject", by rw [parsed]; rfl⟩
  have responds := (handleOpenChannel_responds_iff samplePlugin sampleScripting
    (sampleRequest "openchannel") parses).mpr presentable
  have expected : expectedResult sampleScript (.string (verdictText "reject")) = verdict "reject" := by
    simp [expectedResult, sampleScript, isUnicode_verdictText, parse_verdictText]
  exact expected ▸ responds

/-- The word is not answered at all, and the plugin stops. -/
theorem word_stops_plugin :
    samplePlugin.handleOpenChannel sampleScripting (sampleRequest "openchannel2") =
      .ok { samplePlugin with running := false } ∧
    expectedResult sampleScript (.string (goString "yes")) = verdict "reject" := by
  have refused : runes.parse (goString "yes") = none := rfl
  have unwritten : marshalResponse none (goString "yes") = none :=
    marshalResponse_eq_none none (by simp [unmarshal, refused])
  have parses : sampleScripting.unmarshalOpenChannel "openchannel2" (sampleParams "openchannel2") =
      .ok (goString "1") := by simp [sampleScripting]
  constructor
  · simp only [handleOpenChannel, sampleRequest, parses]
    change samplePlugin.sendToCln (marshalResponse none (goString "yes")) = _
    rw [unwritten]
    rfl
  · simp [expectedResult, sampleScript, refused]

end ClnPlugin

end Lspd.Plugin
