import Lspd.Plugin.Acceptor
import Lspd.Plugin.RequestIds
import Lspd.Plugin.Server

/-! How the plugin handles the requests of cln: the loop that reads them in order, the
goroutines that answer `openchannel` requests, and the one that writes what the grpc
server resolves. All of them write to the same output, and to the same log. -/

namespace Lspd.Plugin

open Lspd.Codec Lspd.Common Lspd.Process

/-- What `handleInit` reads of the params of `init`. -/
structure InitMessage where
  options : String → Option Json

/-- The parts of the libraries the handlers use. `formatValue` is the verb `%v`. -/
structure Libraries where
  scripting : Scripting
  unmarshalInit : GoString → Except String InitMessage
  unmarshalHtlcAccepted : GoString → Except String HtlcAccepted
  unmarshalStrings : GoString → Except String (List String)
  formatValue : Json → String
  parseDuration : String → Option Time

section Manifest

def subscriberTimeoutOption : String := "lsp-subscribertimeout"
def listenAddressOption : String := "lsp-listen"
def channelAcceptScriptOption : String := "lsp-channel-accept-script"

def defaultSubscriberTimeout : String := "1m"
def defaultChannelAcceptorScript : String := ""

def stringText (text : String) : GoString := marshalText (goString text)

def arrayText : List GoString → GoString
  | [] => goString "[]"
  | element :: rest =>
    .char '[' :: (element ++ rest.flatMap (.char ',' :: ·) ++ [.char ']'])

def optionText (name description : String) (default : Option String) : GoString :=
  runes.objectText ([(goString "name", stringText name), (goString "type", stringText "string"),
    (goString "description", stringText description)] ++
      (default.map fun text => (goString "default", stringText text)).toList)

def rpcMethodText (name description : String) : GoString :=
  runes.objectText [(goString "name", stringText name), (goString "usage", stringText ""),
    (goString "description", stringText description)]

def hookText (name : String) : GoString := runes.objectText [(goString "name", stringText name)]

def manifestText : GoString :=
  runes.objectText
    [(goString "options", arrayText
        [optionText listenAddressOption "listen address for the htlc_accepted lsp grpc server" none,
          optionText subscriberTimeoutOption ("the maximum duration we will hold a htlc " ++
            "if no subscriber is active. golang duration string.") defaultSubscriberTimeout,
          optionText channelAcceptScriptOption "starlark script for channel acceptor."
            defaultChannelAcceptorScript]),
      (goString "rpcmethods", arrayText
        [rpcMethodText "getchannelacceptscript" "Get the startlark channel acceptor script",
          rpcMethodText "setchannelacceptscript" "Set the startlark channel acceptor script"]),
      (goString "dynamic", goString "false"),
      (goString "subscriptions", arrayText [stringText "shutdown"]),
      (goString "hooks", arrayText (["htlc_accepted", "openchannel", "openchannel2"].map hookText)),
      (goString "nonnumericids", goString "true")]

end Manifest

/-- The results that are put into responses. -/
inductive Result where
  | manifest
  | string (text : String)
  | raw (text : GoString)

def Result.marshal : Result → Option GoString
  | .manifest => some manifestText
  | .string text => some (stringText text)
  | .raw text => marshalRaw text

/-- What is written to cln: notifications with a line of the log, responses with a result
or with an error, and the responses to `htlc_accepted`, whose ids are strings. -/
inductive Outgoing where
  | log (level : String) (message : GoString)
  | response (id : Option RawMessage) (result : Option Result)
  | error (id : Option RawMessage) (code message : GoString)
  | resolution (id : String) (result : HtlcResult)

/-- A map is written in the order of its keys. -/
def resultText (result : HtlcResult) : GoString :=
  runes.objectText ((result.mergeSort fun one two => one.1 ≤ two.1).map fun (key, value) =>
    (goString key, stringText value))

def responseText (id : GoString) (result : Option GoString) : GoString :=
  runes.objectText ([(goString "id", id), (goString "jsonrpc", ClnPlugin.specVersion)] ++
    (result.map fun text => (goString "result", text)).toList)

/-- `json.Marshal` of a message. -/
def Outgoing.marshal : Outgoing → Option GoString
  | .log level message =>
    let params := runes.objectText
      [(goString "level", stringText level), (goString "message", marshalText message)]
    some (runes.objectText [(goString "method", stringText "log"),
      (goString "jsonrpc", ClnPlugin.specVersion), (goString "params", params)])
  | .response id none => do return responseText (← marshalRaw (ClnPlugin.idText id)) none
  | .response id (some result) => do
    let id ← marshalRaw (ClnPlugin.idText id)
    return responseText id (some (← result.marshal))
  | .error id code message => ClnPlugin.marshalError id code message
  | .resolution id result => do
    return responseText (← marshalRaw (stringText id)) (some (resultText result))

section Handlers

def invalidRequest : GoString := goString "-32600"
def methodNotFound : GoString := goString "-32601"
def invalidParams : GoString := goString "-32603"
def internalErr : GoString := goString "-32603"

/-- The messages of `sendError`. -/
def errorMessages (id : Option RawMessage) (code message : GoString) : List Outgoing :=
  [.log "error" message, .error id code message]

/-- The error of a handler that cannot read its params. -/
def unmarshalError (name err : String) (request : Incoming) : List Outgoing :=
  errorMessages request.id ClnPlugin.parseError
    (goString ("Failed to unmarshal " ++ name ++ " params:" ++ err ++ " [") ++ request.params ++
      goString "]")

/-- How the loop goes on with a request: it writes messages and goes on, starts the grpc
server, stops the plugin, sends an htlc to the server, or leaves the request to a
goroutine. -/
inductive Outcome where
  | answer (messages : List Outgoing)
  | start (address : String) (subscriberTimeout : Time)
  | stop
  | forward (id : String) (htlc : HtlcAccepted)
  | decide

variable (lib : Libraries)

def missingOption (name : String) : GoString := goString ("Missing option '" ++ name ++ "'")

def invalidOption (value name : String) : GoString :=
  goString ("Invalid value '" ++ value ++ "' for option '" ++ name ++ "'")

/-- An option that has to be a string with something in it. -/
def stringOption (init : InitMessage) (name : String) : Except GoString String :=
  match init.options name with
  | none => .error (missingOption name)
  | some (.string []) => .error (invalidOption (lib.formatValue (.string [])) name)
  | some (.string text) => .ok (.ofList text)
  | some value => .error (invalidOption (lib.formatValue value) name)

/-- The address to listen on and the subscriber timeout. -/
def serverOptions (init : InitMessage) : Except GoString (String × Time) := do
  let address ← stringOption lib init listenAddressOption
  let timeout ← stringOption lib init subscriberTimeoutOption
  match lib.parseDuration timeout with
  | none => .error (invalidOption timeout subscriberTimeoutOption)
  | some subscriberTimeout => .ok (address, subscriberTimeout)

/-- A script that is not a string is replaced by the empty one before the error. -/
def handleInit (script : String) (request : Incoming) : String × Outcome :=
  let failed (message : GoString) : Outcome :=
    .answer (errorMessages request.id invalidParams message)
  match lib.unmarshalInit request.params with
  | .error err =>
    (script, .answer (errorMessages request.id ClnPlugin.parseError
      (goString ("Failed to unmarshal init params: " ++ err))))
  | .ok init =>
    match init.options channelAcceptScriptOption with
    | none => (script, failed (missingOption channelAcceptScriptOption))
    | some (.string text) =>
      match serverOptions lib init with
      | .error message => (.ofList text, failed message)
      | .ok (address, subscriberTimeout) => (.ofList text, .start address subscriberTimeout)
    | some value =>
      ("", failed (invalidOption (lib.formatValue value) channelAcceptScriptOption))

def handleHtlcAccepted (request : Incoming) : Outcome :=
  match lib.unmarshalHtlcAccepted request.params with
  | .error err => .answer (unmarshalError "htlc_accepted" err request)
  | .ok htlc =>
    let id := request.id.elim [] fun raw => raw.text.map runes.view
    .forward (idToString (.ofList id)) htlc

def handleSetChannelAcceptScript (script : String) (request : Incoming) : String × Outcome :=
  match lib.unmarshalStrings request.params with
  | .error err => (script, .answer (unmarshalError "setchannelacceptscript" err request))
  | .ok params =>
    let script := params.head?.getD script
    (script, .answer [.response request.id (some (.string script))])

/-- The messages of `handleOpenChannel`. -/
def openChannelMessages (script : String) (request : Incoming) : List Outgoing :=
  match lib.scripting.unmarshalOpenChannel request.method request.params with
  | .error err => unmarshalError "openchannel" err request
  | .ok p =>
    [.response request.id
      (some (.raw (channelAcceptor lib.scripting script request.method p).1))]

/-- What `handleOpenChannel` logs before that. -/
def openChannelLog (script : String) (request : Incoming) : Option GoString :=
  match lib.scripting.unmarshalOpenChannel request.method request.params with
  | .error _ => none
  | .ok p =>
    (channelAcceptor lib.scripting script request.method p).2.map (ClnPlugin.acceptorError request)

/-- The accept script after a request, and how the loop goes on. -/
def processRequest (script : String) (request : Incoming) : String × Outcome :=
  if request.jsonRpc ≠ "2.0" then
    (script, .answer (errorMessages request.id invalidRequest
      (goString ("Invalid jsonrpc, expected '2.0' got '" ++ request.jsonRpc ++ "'"))))
  else
    match request.method with
    | "getmanifest" => (script, .answer [.response request.id (some .manifest)])
    | "init" => handleInit lib script request
    | "shutdown" => (script, .stop)
    | "htlc_accepted" => (script, handleHtlcAccepted lib request)
    | "openchannel" | "openchannel2" => (script, .decide)
    | "getchannelacceptscript" => (script, .answer [.response request.id (some (.string script))])
    | "setchannelacceptscript" => handleSetChannelAcceptScript lib script request
    | method =>
      (script, .answer (errorMessages request.id methodNotFound
        (goString ("Method '" ++ method ++ "' not found"))))

/-- The messages of a server that does not start. -/
def startErrorMessages (id : Option RawMessage) (err : String) : List Outgoing :=
  errorMessages id internalErr (goString ("Failed to start server: " ++ err))

end Handlers

/-- Where `listenRequests` is. Requests are numbered in the order they came in. -/
inductive RequestLoop where
  | reading
  | writing (n : Nat) (messages : List Outgoing)
  | starting (n : Nat) (address : String) (subscriberTimeout : Time)
  | forwarding (id : String) (htlc : HtlcAccepted)
  | stopping
  | ended

/-- The goroutine of an `openchannel` request. -/
inductive Handler where
  | absent
  | deciding
  | logging (text : GoString) (messages : List Outgoing)
  | writing (messages : List Outgoing)

/-- Where `htlcListenServer` is. -/
inductive Listening where
  | off
  | receiving
  | holding (msg : HtlcResultMsg)
  | left

/-- On whose behalf a message is written. -/
inductive Origin where
  | request (n : Nat)
  | resolution
  | info
  deriving DecidableEq

/-- The plugin with its goroutines. -/
structure Dispatcher where
  plugin : ClnPlugin
  loop : RequestLoop
  handlers : Nat → Handler
  listening : Listening
  /-- The requests that were read, in order. -/
  received : List Incoming
  /-- All calls of `sendToCln`, in order. -/
  sent : List (Origin × Outgoing)
  /-- The htlcs given to the server, in order. -/
  forwarded : List (String × HtlcAccepted)
  /-- What the server has resolved, in order. -/
  resolved : List HtlcResultMsg

namespace Dispatcher

variable (lib : Libraries)

def initial : Dispatcher where
  plugin := ⟨"", [], true, true⟩
  loop := .reading
  handlers _ := .absent
  listening := .off
  received := []
  sent := []
  forwarded := []
  resolved := []

/-- `Stop`, once its line is in the log. -/
def stop (d : Dispatcher) : Dispatcher := { d with plugin := { d.plugin with running := false } }

/-- A call of `sendToCln` that returns, with what becomes of the plugin. The output may also
break. Like a message that has no json text that is logged, so it blocks for good when the
log is not read any more. -/
inductive Sends (d : Dispatcher) (origin : Origin) (message : Outgoing) : Dispatcher → Prop where
  | returned (plugin : ClnPlugin) (sent : d.plugin.sendToCln message.marshal = .ok plugin) :
      Sends d origin message { d with plugin, sent := d.sent ++ [(origin, message)] }
  | broken (scanning : d.plugin.scanning = true) :
      Sends d origin message { d.stop with sent := d.sent ++ [(origin, message)] }

/-- `processRequest` up to its first message. -/
def take (d : Dispatcher) (request : Incoming) : Dispatcher :=
  let n := d.received.length
  let (script, outcome) := processRequest lib d.plugin.channelAcceptScript request
  let read : Dispatcher :=
    { d with
      plugin := { d.plugin with channelAcceptScript := script }
      received := d.received ++ [request] }
  match outcome with
  | .answer messages => { read with loop := .writing n messages }
  | .start address timeout => { read with loop := .starting n address timeout }
  | .stop => { read with loop := .stopping }
  | .forward id htlc => { read with loop := .forwarding id htlc }
  | .decide => { read with handlers := Function.update read.handlers n .deciding }

/-- What the plugin does together with its grpc server. -/
inductive Action where
  | internal
  | start (address : String) (subscriberTimeout : Time)
  | call (id : String) (htlc : HtlcAccepted)
  | receive (msg : HtlcResultMsg)

/-- What the goroutine of a request goes on with when it has run the script. -/
def decided (script : String) (request : Incoming) : Handler :=
  let messages := openChannelMessages lib script request
  match openChannelLog lib script request with
  | none => .writing messages
  | some text => .logging text messages

/-- The steps of the goroutines. The loop, the handlers and the listener may all write
between two messages of another one, and so may the log at any time. A call that blocks for
good, since the log is not read any more, has no step. cln sends `init` once: a second start
of the server is no step. -/
inductive Step (d : Dispatcher) : Action → Dispatcher → Prop where
  | take (request : Incoming) (here : d.loop = .reading) (running : d.plugin.running = true) :
      Step d .internal (d.take lib request)
  /-- `reader.Next` returns an error, which is logged, or the plugin was stopped. -/
  | quit (here : d.loop = .reading)
      (returns : d.plugin.running = false ∨ d.plugin.scanning = true) :
      Step d .internal { d.stop with loop := .ended }
  | shutdown (here : d.loop = .stopping) (scanning : d.plugin.scanning = true) :
      Step d .internal { d.stop with loop := .reading }
  | write {n : Nat} (here : d.loop = .writing n (message :: rest))
      (sends : Sends d (.request n) message after) :
      Step d .internal { after with loop := .writing n rest }
  | finish {n : Nat} (here : d.loop = .writing n []) : Step d .internal { d with loop := .reading }
  | started {n : Nat} (here : d.loop = .starting n address timeout)
      (found : d.received[n]? = some request) (first : d.listening = .off) :
      Step d (.start address timeout)
        { d with loop := .writing n [.response request.id none], listening := .receiving }
  | startError {n : Nat} (err : String) (here : d.loop = .starting n address timeout)
      (found : d.received[n]? = some request) :
      Step d .internal { d with loop := .writing n (startErrorMessages request.id err) }
  | forward {id : String} (here : d.loop = .forwarding id htlc) :
      Step d (.call id htlc)
        { d with loop := .reading, forwarded := d.forwarded ++ [(id, htlc)] }
  /-- The server is stopped after the plugin, and takes no htlcs then. -/
  | drop {id : String} (here : d.loop = .forwarding id htlc) (stopped : d.plugin.running = false) :
      Step d .internal { d with loop := .reading }
  | decide (n : Nat) (here : d.handlers n = .deciding) (found : d.received[n]? = some request) :
      Step d .internal
        { d with
          handlers := Function.update d.handlers n
            (decided lib d.plugin.channelAcceptScript request) }
  | logged (n : Nat) (here : d.handlers n = .logging text messages) (plugin : ClnPlugin)
      (printed : d.plugin.printf text = .ok plugin) :
      Step d .internal
        { d with plugin, handlers := Function.update d.handlers n (.writing messages) }
  /-- The line is too long for the log, and the call blocks for good. -/
  | jam (n : Nat) (here : d.handlers n = .logging text messages) (plugin : ClnPlugin)
      (blocked : d.plugin.printf text = .error plugin) : Step d .internal { d with plugin }
  | reply (n : Nat) (here : d.handlers n = .writing (message :: rest))
      (sends : Sends d (.request n) message after) :
      Step d .internal
        { after with handlers := Function.update after.handlers n (.writing rest) }
  | receive (msg : HtlcResultMsg) (here : d.listening = .receiving) :
      Step d (.receive msg)
        { d with listening := .holding msg, resolved := d.resolved ++ [msg] }
  | resolve (here : d.listening = .holding msg)
      (sends : Sends d .resolution (.resolution msg.id msg.result) after) :
      Step d .internal { after with listening := .receiving }
  | leave (here : d.listening = .receiving) (stopped : d.plugin.running = false) :
      Step d .internal { d with listening := .left }
  | info (line : GoString) (plugin : ClnPlugin)
      (sent : d.plugin.sendToCln (Outgoing.log "info" line).marshal = .ok plugin) :
      Step d .internal { d with plugin, sent := d.sent ++ [(.info, .log "info" line)] }
  /-- The scanner of the log cannot write a line, and blocks when it logs that. -/
  | mute : Step d .internal { d with plugin := { d.plugin with scanning := false } }
  /-- The grpc server has ended, or the process got a signal. -/
  | stop (scanning : d.plugin.scanning = true) : Step d .internal d.stop

end Dispatcher

/-- The process: the plugin, and its grpc server once that is started. -/
structure PluginProcess where
  dispatcher : Dispatcher
  server : Option State

namespace PluginProcess

variable (lib : Libraries)

/-- The server takes the htlcs the loop sends, `htlcListenServer` gets what it resolves,
and else both go on by themselves. -/
inductive Step (s : PluginProcess) : Unit → PluginProcess → Prop where
  | plugin (step : Dispatcher.Step lib s.dispatcher .internal d) :
      Step s () { s with dispatcher := d }
  | start (now : Time) (step : Dispatcher.Step lib s.dispatcher (.start address timeout) d)
      (first : s.server = none) : Step s () ⟨d, some (.start timeout now)⟩
  | call {id : String} {htlc : HtlcAccepted} {running : State} (here : s.server = some running)
      (step : Dispatcher.Step lib s.dispatcher (.call id htlc) d)
      (taken : Plugin.Step running (.call id htlc) later) : Step s () ⟨d, some later⟩
  | receive {msg : HtlcResultMsg} {running : State} (here : s.server = some running)
      (next : running.htlcRecvQueue.head? = some msg)
      (step : Dispatcher.Step lib s.dispatcher (.receive msg) d)
      (taken : Plugin.Step running .dequeue later) : Step s () ⟨d, some later⟩
  | server {running : State} (here : s.server = some running)
      (taken : Plugin.Step running action later)
      (noCall : ∀ id htlc, action ≠ .call id htlc) (noReceive : action ≠ .dequeue) :
      Step s () { s with server := some later }

def machine : Machine PluginProcess Unit where
  Initial s := s = ⟨.initial, none⟩
  Step := Step lib

end PluginProcess

end Lspd.Plugin
