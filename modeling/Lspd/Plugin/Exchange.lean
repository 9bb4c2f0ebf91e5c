import Lspd.Plugin.Answered

/-! What goes between cln, the plugin and its grpc server: nothing that is handed over is
lost, and the answers cln gets are those of the handlers and of the server. -/

namespace Lspd.Plugin

open Lspd.Common Lspd.Process

section Forwards

variable {lib : Libraries} {script : String} {request : Incoming}

def Outcome.htlc : Outcome → Option (String × HtlcAccepted)
  | .forward id htlc => some (id, htlc)
  | _ => none

/-- The htlc of a request that goes to the server. -/
def htlcOf (lib : Libraries) (request : Incoming) : Option (String × HtlcAccepted) :=
  if request.jsonRpc = "2.0" ∧ request.method = "htlc_accepted" then
    (handleHtlcAccepted lib request).htlc
  else none

theorem htlc_handleInit : (handleInit lib script request).2.htlc = none := by
  unfold handleInit
  simp only
  split
  · rfl
  · split
    · rfl
    · split <;> rfl
    · rfl

theorem htlc_handleSetChannelAcceptScript :
    (handleSetChannelAcceptScript lib script request).2.htlc = none := by
  unfold handleSetChannelAcceptScript
  split <;> rfl

theorem htlc_processRequest :
    (processRequest lib script request).2.htlc = htlcOf lib request := by
  unfold processRequest htlcOf
  by_cases version : request.jsonRpc = "2.0"
  · simp only [version, ne_eq, not_true_eq_false, if_false, true_and]
    split <;> simp_all [htlc_handleInit, htlc_handleSetChannelAcceptScript] <;> rfl
  · simp [version, Outcome.htlc]

def RequestLoop.hand : RequestLoop → List (String × HtlcAccepted)
  | .forwarding id htlc => [(id, htlc)]
  | _ => []

def Listening.hand : Listening → List HtlcResultMsg
  | .holding msg => [msg]
  | _ => []

def HtlcResultMsg.outgoing (msg : HtlcResultMsg) : Outgoing := .resolution msg.id msg.result

end Forwards

namespace Dispatcher

def Action.calls : Action → List (String × HtlcAccepted)
  | .call id htlc => [(id, htlc)]
  | _ => []

def Action.receives : Action → List HtlcResultMsg
  | .receive msg => [msg]
  | _ => []

variable {lib : Libraries} {d later after : Dispatcher} {origin : Origin} {message : Outgoing}

/-- What goes between the plugin, cln and the server. While the plugin is running nothing
that is handed to `sendToCln` is missing from the output, and no htlc is dropped. -/
structure Passed (lib : Libraries) (d : Dispatcher) : Prop where
  written : d.plugin.running = true → d.plugin.written.map some = d.sent.map (·.2.marshal)
  forwarded : d.plugin.running = true →
    d.forwarded ++ d.loop.hand = d.received.filterMap (htlcOf lib)
  resolved : sentBy d.sent .resolution ++ d.listening.hand.map HtlcResultMsg.outgoing =
    d.resolved.map HtlcResultMsg.outgoing

theorem output_sendToCln {c plugin : ClnPlugin} {marshalled : Option GoString}
    (sent : c.sendToCln marshalled = .ok plugin) (running : plugin.running = true) :
    c.running = true ∧ plugin.written.map some = c.written.map some ++ [marshalled] := by
  unfold ClnPlugin.sendToCln at sent
  split at sent
  · split_ifs at sent
    cases sent
    cases running
  · cases sent
    exact ⟨running, List.map_append⟩

theorem Sends.running (sends : Sends d origin message after) (running : after.plugin.running = true) :
    d.plugin.running = true := by
  cases sends with
  | returned plugin called => exact (output_sendToCln called running).1
  | broken scanning => cases running

theorem Sends.output (sends : Sends d origin message after)
    (before : d.plugin.running = true → d.plugin.written.map some = d.sent.map (·.2.marshal))
    (running : after.plugin.running = true) :
    after.plugin.written.map some = after.sent.map (·.2.marshal) := by
  have written := before (sends.running running)
  cases sends with
  | returned plugin called =>
    rw [(output_sendToCln called running).2, written, List.map_append]
    rfl
  | broken scanning => cases running

theorem Passed.take (passed : d.Passed lib) (here : d.loop = .reading) (request : Incoming) :
    (d.take lib request).Passed lib := by
  have before : d.plugin.running = true → d.forwarded = d.received.filterMap (htlcOf lib) := by
    intro running
    simpa [here, RequestLoop.hand] using passed.forwarded running
  have idle : d.loop.hand = [] := by rw [here]; rfl
  have own := @htlc_processRequest lib d.plugin.channelAcceptScript request
  unfold Dispatcher.take
  split
  rename_i script outcome processed
  rw [processed] at own
  -- what the loop has in hand now is the htlc of the request, if it has one
  have more (hand : List (String × HtlcAccepted)) (same : hand = outcome.htlc.toList)
      (running : d.plugin.running = true) :
      d.forwarded ++ hand = (d.received ++ [request]).filterMap (htlcOf lib) := by
    rw [List.filterMap_append, ← before running, same, own]
    cases htlc : htlcOf lib request <;> simp [htlc]
  cases outcome with
  | answer messages => exact ⟨passed.written, more _ rfl, passed.resolved⟩
  | start address timeout => exact ⟨passed.written, more _ rfl, passed.resolved⟩
  | stop => exact ⟨passed.written, more _ rfl, passed.resolved⟩
  | forward id htlc => exact ⟨passed.written, more _ rfl, passed.resolved⟩
  | decide => exact ⟨passed.written, more _ idle, passed.resolved⟩

/-- A message that is not a resolution is written. -/
theorem Passed.sends (passed : d.Passed lib) (sends : Sends d origin message after)
    (other : origin ≠ .resolution) : after.Passed lib := by
  have sent := sends.sent
  refine ⟨sends.output passed.written, ?_, ?_⟩
  · intro running
    rw [sent.forwarded, sent.loop, sent.received]
    exact passed.forwarded (sends.running running)
  · rw [sent.others other, sent.listening, sent.resolved]
    exact passed.resolved

theorem Passed.setLoop {loop : RequestLoop} (passed : d.Passed lib) (same : loop.hand = d.loop.hand) :
    Passed lib { d with loop } :=
  ⟨passed.written, fun running => (congrArg _ same).trans (passed.forwarded running), passed.resolved⟩

theorem Passed.stop (passed : d.Passed lib) : d.stop.Passed lib :=
  ⟨nofun, nofun, passed.resolved⟩

theorem Passed.resolve {msg : HtlcResultMsg} (passed : d.Passed lib)
    (here : d.listening = .holding msg) (sends : Sends d .resolution msg.outgoing after) :
    Passed lib { after with listening := .receiving } := by
  have sent := sends.sent
  refine ⟨sends.output passed.written, ?_, ?_⟩
  · intro running
    change after.forwarded ++ after.loop.hand = after.received.filterMap _
    rw [sent.forwarded, sent.loop, sent.received]
    exact passed.forwarded (sends.running running)
  · have before := passed.resolved
    rw [here] at before
    change sentBy after.sent .resolution ++ [] = after.resolved.map _
    rw [sent.sent, sentBy_append, if_pos rfl, sent.resolved, ← before, List.append_nil]
    rfl

theorem Passed.step {action : Action} (passed : d.Passed lib) (step : Step lib d action later) :
    later.Passed lib := by
  cases step with
  | take request here running => exact passed.take here request
  | quit here _ => exact passed.stop.setLoop (congrArg RequestLoop.hand here).symm
  | shutdown here _ => exact passed.stop.setLoop (congrArg RequestLoop.hand here).symm
  | write here sends =>
    have sent := sends.sent
    exact (passed.sends sends nofun).setLoop (by rw [sent.loop, here]; rfl)
  | finish here => exact passed.setLoop (by rw [here]; rfl)
  | started here found first =>
    have waiting := passed.resolved
    rw [first] at waiting
    refine ⟨passed.written, fun running => ?_, waiting⟩
    have before := passed.forwarded running
    rwa [here] at before
  | startError err here found => exact passed.setLoop (by rw [here]; rfl)
  | forward here =>
    refine ⟨passed.written, fun running => ?_, passed.resolved⟩
    have before := passed.forwarded running
    rw [here] at before
    exact (List.append_nil _).trans before
  | drop here stopped =>
    have never (running : d.plugin.running = true) : False := by
      rw [stopped] at running
      cases running
    exact ⟨passed.written, fun running => (never running).elim, passed.resolved⟩
  | decide n here found => exact ⟨passed.written, passed.forwarded, passed.resolved⟩
  | logged n here plugin printed =>
    obtain rfl := eq_of_printf printed
    exact ⟨passed.written, passed.forwarded, passed.resolved⟩
  | jam n here plugin blocked =>
    obtain rfl := eq_of_blocked blocked
    exact ⟨passed.written, passed.forwarded, passed.resolved⟩
  | reply n here sends =>
    have after := passed.sends sends nofun
    exact ⟨after.written, after.forwarded, after.resolved⟩
  | receive msg here =>
    refine ⟨passed.written, passed.forwarded, ?_⟩
    have before := passed.resolved
    rw [here] at before
    change sentBy d.sent .resolution ++ [] = _ at before
    rw [List.append_nil] at before
    change sentBy d.sent .resolution ++ [msg.outgoing] = (d.resolved ++ [msg]).map _
    rw [before, List.map_append]
    rfl
  | resolve here sends => exact passed.resolve here sends
  | leave here stopped =>
    refine ⟨passed.written, passed.forwarded, ?_⟩
    have before := passed.resolved
    rwa [here] at before
  | info line plugin called =>
    have sends : Sends d .info (.log "info" line) _ := .returned plugin called
    exact passed.sends sends nofun
  | mute => exact ⟨passed.written, passed.forwarded, passed.resolved⟩
  | stop _ => exact passed.stop

theorem Passed.initial : (initial : Dispatcher).Passed lib :=
  ⟨fun _ => rfl, fun _ => rfl, rfl⟩

/-- Only the steps that the plugin takes together with its server change what went
between them. -/
theorem shared_of_step {action : Action} (step : Step lib d action later) :
    later.forwarded = d.forwarded ++ action.calls ∧ later.resolved = d.resolved ++ action.receives := by
  have none : d.forwarded = d.forwarded ++ [] ∧ d.resolved = d.resolved ++ [] :=
    ⟨(List.append_nil _).symm, (List.append_nil _).symm⟩
  have sends {origin : Origin} {message : Outgoing} {after : Dispatcher}
      (sends : Sends d origin message after) :
      after.forwarded = d.forwarded ++ [] ∧ after.resolved = d.resolved ++ [] :=
    ⟨sends.sent.forwarded.trans none.1, sends.sent.resolved.trans none.2⟩
  cases step with
  | take request here running =>
    unfold Dispatcher.take
    split
    rename_i script outcome processed
    cases outcome <;> exact none
  | write here wrote | reply n here wrote | resolve here wrote =>
    have kept := sends wrote
    exact kept
  | forward here => exact ⟨rfl, none.2⟩
  | receive msg here => exact ⟨none.1, rfl⟩
  | _ => exact none

end Dispatcher

namespace PluginProcess

variable {lib : Libraries} {s later : PluginProcess}

/-- What the loop and `htlcListenServer` have done is what the server has seen. -/
def Joined (s : PluginProcess) : Prop :=
  match s.server with
  | none => s.dispatcher.forwarded = [] ∧ s.dispatcher.resolved = []
  | some running =>
    running.called = s.dispatcher.forwarded.map Prod.fst ∧
      running.returned = s.dispatcher.resolved.map HtlcResultMsg.id

/-- What holds in every state of the process. -/
structure Sound (lib : Libraries) (s : PluginProcess) : Prop where
  inv : s.dispatcher.Inv lib
  passed : s.dispatcher.Passed lib
  joined : s.Joined

theorem ids_of_step {server after : State} {action : Plugin.Action}
    (step : Plugin.Step server action after) (noCall : ∀ id htlc, action ≠ .call id htlc)
    (noReceive : action ≠ .dequeue) :
    after.called = server.called ∧ after.returned = server.returned := by
  cases step with
  | call id htlc new => exact absurd rfl (noCall id htlc)
  | dequeue queue => exact absurd rfl noReceive
  | _ => exact ⟨rfl, rfl⟩

theorem Sound.step {action : Unit} (sound : s.Sound lib) (step : Step lib s action later) :
    later.Sound lib := by
  have joined := sound.joined
  unfold Joined at joined
  cases step with
  | plugin step =>
    obtain ⟨forwarded, resolved⟩ := Dispatcher.shared_of_step step
    refine ⟨sound.inv.step step, sound.passed.step step, ?_⟩
    rw [Joined, forwarded, resolved]
    simpa [Dispatcher.Action.calls, Dispatcher.Action.receives] using joined
  | start now step first =>
    obtain ⟨forwarded, resolved⟩ := Dispatcher.shared_of_step step
    rw [first] at joined
    refine ⟨sound.inv.step step, sound.passed.step step, ?_⟩
    rw [Joined, forwarded, resolved, joined.1, joined.2]
    exact ⟨rfl, rfl⟩
  | call here step taken =>
    obtain ⟨forwarded, resolved⟩ := Dispatcher.shared_of_step step
    rw [here] at joined
    refine ⟨sound.inv.step step, sound.passed.step step, ?_⟩
    cases taken with
    | call id htlc new =>
      rw [Joined, forwarded, resolved]
      simpa [Dispatcher.Action.calls, Dispatcher.Action.receives] using joined
  | receive here next step taken =>
    obtain ⟨forwarded, resolved⟩ := Dispatcher.shared_of_step step
    rw [here] at joined
    refine ⟨sound.inv.step step, sound.passed.step step, ?_⟩
    cases taken with
    | dequeue queue =>
      rw [queue, List.head?_cons] at next
      obtain rfl := Option.some.inj next
      rw [Joined, forwarded, resolved]
      simpa [Dispatcher.Action.calls, Dispatcher.Action.receives] using joined
  | server here taken noCall noReceive =>
    obtain ⟨called, returned⟩ := ids_of_step taken noCall noReceive
    rw [here] at joined
    exact ⟨sound.inv, sound.passed, called.trans joined.1, returned.trans joined.2⟩

theorem Sound.reachable (reached : (machine lib).Reachable s) : s.Sound lib := by
  refine reached.induct (Sound lib) ?_ fun _ _ _ _ sound taken => sound.step taken
  rintro _ rfl
  exact ⟨.initial, .initial, rfl, rfl⟩

/-- However the goroutines of the plugin interleave, a request that it answers itself gets
its own answer and no other: what was written for it, with what is still to be written, is
one response with its id, decided by a script in force since it came in. For a shutdown and
for an htlc that goes to the server it writes nothing. What is written for htlcs is what
`ReceiveHtlcResolution` returned, each once. While the plugin is running all of it is in the
output, and every htlc of cln has gone to the server. -/
theorem answered_once (reached : (machine lib).Reachable s) :
    (∀ n request, s.dispatcher.received[n]? = some request →
      s.dispatcher.Tracked lib n request ∧ ∀ rest, s.dispatcher.phase n = .writing rest →
        (outcomeAt lib s.dispatcher.received n request).Answered request.id
          (sentBy s.dispatcher.sent (.request n) ++ rest)) ∧
      (∀ n, s.dispatcher.received.length ≤ n → sentBy s.dispatcher.sent (.request n) = []) ∧
      sentBy s.dispatcher.sent .resolution ++
          s.dispatcher.listening.hand.map HtlcResultMsg.outgoing =
        s.dispatcher.resolved.map HtlcResultMsg.outgoing ∧
      s.Joined ∧
      (s.dispatcher.plugin.running = true →
        s.dispatcher.plugin.written.map some = s.dispatcher.sent.map (·.2.marshal) ∧
        s.dispatcher.forwarded ++ s.dispatcher.loop.hand =
          s.dispatcher.received.filterMap (htlcOf lib)) := by
  obtain ⟨inv, passed, joined⟩ := Sound.reachable reached
  refine ⟨?_, fun n outside => (inv.unread n outside).1, passed.resolved, joined, ?_⟩
  · intro n request found
    have tracked := inv.tracked n request found
    refine ⟨tracked, fun rest phase => ?_⟩
    rw [Dispatcher.Tracked, phase] at tracked
    exact tracked.answered
  · exact fun running => ⟨passed.written running, passed.forwarded running⟩

/-- The params that set a script. -/
def sampleScriptParams : GoString := goString "[\"1\"]"

/-- Libraries for which the script is a number, which is no string. -/
def sampleLibraries : Libraries where
  scripting := ⟨ClnPlugin.sampleScripting.unmarshalOpenChannel, fun _ _ _ => .other⟩
  unmarshalInit _ := .error "unexpected end of JSON input"
  unmarshalHtlcAccepted _ := .error "unexpected end of JSON input"
  unmarshalStrings params :=
    if params = sampleScriptParams then .ok ["1"] else .error "unexpected end of JSON input"
  formatValue _ := ""
  parseDuration _ := none

private theorem exists_sends (d : Dispatcher) (origin : Origin) {result : Result} {text : GoString}
    (marshalled : result.marshal = some text) :
    ∃ data, Dispatcher.Sends d origin (.response none (some result))
      { d with
        plugin := { d.plugin with written := d.plugin.written ++ [data] }
        sent := d.sent ++ [(origin, .response none (some result))] } := by
  obtain ⟨id, known, _⟩ := ClnPlugin.exists_marshalRaw_id none
  have response : (Outgoing.response none (some result)).marshal =
      some (responseText id (some text)) := by
    simp [Outgoing.marshal, known, marshalled]
  exact ⟨_, .returned _ (by rw [response]; rfl)⟩

/-- A script that is set after a request came in decides it. -/
theorem answered_once_sample :
    ∃ s, (machine sampleLibraries).Reachable s ∧
      sentBy s.dispatcher.sent (.request 0) =
        [.response none (some (.raw (verdictText "reject")))] ∧
      SingleResponse none (sentBy s.dispatcher.sent (.request 0)) := by
  have new : (machine sampleLibraries).Reachable ⟨.initial, none⟩ := .start rfl
  have asked := new.step (.plugin (.take (ClnPlugin.sampleRequest "openchannel") rfl rfl))
  have set := asked.step
    (.plugin (.take ⟨none, "setchannelacceptscript", "2.0", sampleScriptParams⟩ rfl rfl))
  obtain ⟨_, told⟩ := exists_sends _ (.request 1) (show Result.marshal (.string "1") = _ from rfl)
  have wrote := set.step (.plugin (.write rfl told))
  have decided := wrote.step (.plugin (.decide 0 rfl rfl))
  have logged := decided.step (.plugin (.logged 0 rfl _ rfl))
  obtain ⟨_, rejected⟩ := exists_marshalRaw
    (unmarshal_eq_some.mpr ⟨by decide, parse_verdictText "reject"⟩)
  obtain ⟨_, answered⟩ := exists_sends _ (.request 0) (show Result.marshal (.raw _) = _ from rejected)
  have replied := logged.step (.plugin (.reply 0 rfl answered))
  have single : SingleResponse none [.response none (some (.raw (verdictText "reject")))] :=
    ((answered_once replied).1 0 _ rfl).2 [] rfl
  exact ⟨_, replied, rfl, single⟩

end PluginProcess

end Lspd.Plugin
