import Lspd.Plugin.Dispatch

/-! A request that the plugin answers itself is answered once and under its own id, whatever
the goroutines of the plugin write in between. -/

namespace Lspd.Plugin

open Lspd.Common Lspd.Process

section Answers

variable (lib : Libraries)

/-- The accept script after the requests. -/
def scriptAfter (requests : List Incoming) : String :=
  requests.foldl (fun script request => (processRequest lib script request).1) ""

def outcomeAt (received : List Incoming) (n : Nat) (request : Incoming) : Outcome :=
  (processRequest lib (scriptAfter lib (received.take n)) request).2

/-- All messages that a request is answered with. An `openchannel` request is decided by a
script that was in force when it came in or later. -/
inductive Answers (received : List Incoming) (n : Nat) (request : Incoming) :
    List Outgoing → Prop where
  | answer (outcome : outcomeAt lib received n request = .answer messages) :
      Answers received n request messages
  | started (outcome : outcomeAt lib received n request = .start address timeout) :
      Answers received n request [.response request.id none]
  | startError (err : String) (outcome : outcomeAt lib received n request = .start address timeout) :
      Answers received n request (startErrorMessages request.id err)
  | stop (outcome : outcomeAt lib received n request = .stop) : Answers received n request []
  | forward {id : String} (outcome : outcomeAt lib received n request = .forward id htlc) :
      Answers received n request []
  | decide (k : Nat) (outcome : outcomeAt lib received n request = .decide) (later : n < k)
      (read : k ≤ received.length) :
      Answers received n request (openChannelMessages lib (scriptAfter lib (received.take k)) request)

/-- A response to the request with this id. -/
def Outgoing.Responds (id : Option RawMessage) : Outgoing → Prop
  | .response own _ | .error own _ _ => own = id
  | _ => False

/-- One response to a request, with lines of the log before it. -/
def SingleResponse (id : Option RawMessage) (messages : List Outgoing) : Prop :=
  ∃ logs response, messages = logs ++ [response] ∧ response.Responds id ∧
    ∀ message ∈ logs, ∃ level text, message = .log level text

/-- The plugin itself writes nothing for a shutdown and for htlcs that go to the server. -/
def Outcome.silent : Outcome → Bool
  | .stop | .forward .. => true
  | _ => false

/-- All that is written for a request with this outcome. -/
def Outcome.Answered (outcome : Outcome) (id : Option RawMessage) (messages : List Outgoing) :
    Prop :=
  if outcome.silent then messages = [] else SingleResponse id messages

variable {lib} {received : List Incoming} {n : Nat} {request : Incoming} {messages : List Outgoing}
  {script : String}

theorem singleResponse_response (id : Option RawMessage) (result : Option Result) :
    SingleResponse id [.response id result] :=
  ⟨[], _, rfl, rfl, nofun⟩

theorem singleResponse_errorMessages (id : Option RawMessage) (code message : GoString) :
    SingleResponse id (errorMessages id code message) := by
  refine ⟨[.log "error" message], .error id code message, rfl, rfl, ?_⟩
  intro only member
  exact ⟨"error", message, List.mem_singleton.mp member⟩

theorem handleInit_answer (handled : (handleInit lib script request).2 = .answer messages) :
    SingleResponse request.id messages := by
  unfold handleInit at handled
  simp only at handled
  split at handled
  · cases handled
    exact singleResponse_errorMessages _ _ _
  · split at handled
    · cases handled
      exact singleResponse_errorMessages _ _ _
    · split at handled
      · cases handled
        exact singleResponse_errorMessages _ _ _
      · cases handled
    · cases handled
      exact singleResponse_errorMessages _ _ _

theorem processRequest_answer (handled : (processRequest lib script request).2 = .answer messages) :
    SingleResponse request.id messages := by
  unfold processRequest at handled
  split_ifs at handled with version
  · cases handled
    exact singleResponse_errorMessages _ _ _
  · split at handled
    · cases handled
      exact singleResponse_response _ _
    · exact handleInit_answer handled
    · cases handled
    · unfold handleHtlcAccepted at handled
      split at handled
      · cases handled
        exact singleResponse_errorMessages _ _ _
      · cases handled
    · cases handled
    · cases handled
    · cases handled
      exact singleResponse_response _ _
    · unfold handleSetChannelAcceptScript at handled
      split at handled
      · cases handled
        exact singleResponse_errorMessages _ _ _
      · cases handled
        exact singleResponse_response _ _
    · cases handled
      exact singleResponse_errorMessages _ _ _

theorem singleResponse_openChannelMessages :
    SingleResponse request.id (openChannelMessages lib script request) := by
  unfold openChannelMessages
  split
  · exact singleResponse_errorMessages _ _ _
  · exact singleResponse_response _ _

theorem Answers.answered (answers : Answers lib received n request messages) :
    (outcomeAt lib received n request).Answered request.id messages := by
  cases answers with
  | answer outcome =>
    rw [outcome]
    exact processRequest_answer outcome
  | started outcome =>
    rw [outcome]
    exact singleResponse_response _ _
  | startError err outcome =>
    rw [outcome]
    exact singleResponse_errorMessages _ _ _
  | stop outcome | forward outcome =>
    rw [outcome]
    exact rfl
  | decide k outcome later read =>
    rw [outcome]
    exact singleResponse_openChannelMessages

theorem outcomeAt_append (inside : n ≤ received.length) (more : List Incoming) :
    outcomeAt lib (received ++ more) n request = outcomeAt lib received n request := by
  rw [outcomeAt, List.take_append_of_le_length inside]
  rfl

theorem Answers.append (answers : Answers lib received n request messages)
    (inside : n ≤ received.length) (more : List Incoming) :
    Answers lib (received ++ more) n request messages := by
  cases answers with
  | answer outcome => exact .answer ((outcomeAt_append inside more).trans outcome)
  | started outcome => exact .started ((outcomeAt_append inside more).trans outcome)
  | startError err outcome => exact .startError err ((outcomeAt_append inside more).trans outcome)
  | stop outcome => exact .stop ((outcomeAt_append inside more).trans outcome)
  | forward outcome => exact .forward ((outcomeAt_append inside more).trans outcome)
  | decide k outcome later read =>
    have decided := @Answers.decide lib (received ++ more) n request k
      ((outcomeAt_append inside more).trans outcome) later
      (Nat.le_trans read (List.length_append ▸ Nat.le_add_right _ _))
    rwa [List.take_append_of_le_length read] at decided

end Answers

section Phases

/-- What was written on behalf of one origin. -/
def sentBy (sent : List (Origin × Outgoing)) (origin : Origin) : List Outgoing :=
  sent.filterMap fun (own, message) => if own = origin then some message else none

theorem sentBy_append (sent : List (Origin × Outgoing)) (own origin : Origin) (message : Outgoing) :
    sentBy (sent ++ [(own, message)]) origin =
      sentBy sent origin ++ if own = origin then [message] else [] := by
  rw [sentBy, List.filterMap_append]
  split_ifs with same <;> simp [same, sentBy]

/-- How far a request is: it is not decided how it is answered, or these messages are still
to be written. -/
inductive Phase where
  | undecided (outcome : Outcome)
  | writing (messages : List Outgoing)

/-- The request the loop is at. -/
def RequestLoop.request : RequestLoop → Option Nat
  | .writing n _ | .starting n _ _ => some n
  | _ => none

def RequestLoop.phase (loop : RequestLoop) (n : Nat) : Phase :=
  match loop with
  | .starting m address timeout =>
    if m = n then .undecided (.start address timeout) else .writing []
  | .writing m messages => if m = n then .writing messages else .writing []
  | _ => .writing []

def Handler.phase : Handler → Phase → Phase
  | .absent, phase => phase
  | .deciding, _ => .undecided .decide
  | .logging _ messages, _ | .writing messages, _ => .writing messages

theorem RequestLoop.phase_of_ne {loop : RequestLoop} {n : Nat} (other : loop.request ≠ some n) :
    loop.phase n = .writing [] := by
  cases loop with
  | writing m messages => exact if_neg fun same => other (congrArg some same)
  | starting m address timeout => exact if_neg fun same => other (congrArg some same)
  | reading | forwarding | stopping | ended => rfl

end Phases

namespace Dispatcher

variable (lib : Libraries) {d later after : Dispatcher} {n : Nat} {request : Incoming}

def phase (d : Dispatcher) (n : Nat) : Phase := (d.handlers n).phase (d.loop.phase n)

/-- What was written for a request, with what is still to be written, is its answer. -/
def Tracked (d : Dispatcher) (n : Nat) (request : Incoming) : Prop :=
  match d.phase n with
  | .undecided outcome =>
    sentBy d.sent (.request n) = [] ∧ outcomeAt lib d.received n request = outcome
  | .writing messages =>
    Answers lib d.received n request (sentBy d.sent (.request n) ++ messages)

structure Inv (d : Dispatcher) : Prop where
  script : d.plugin.channelAcceptScript = scriptAfter lib d.received
  current : ∀ n, d.loop.request = some n → n < d.received.length ∧ d.handlers n = .absent
  unread : ∀ n, d.received.length ≤ n →
    sentBy d.sent (.request n) = [] ∧ d.handlers n = .absent
  tracked : ∀ n request, d.received[n]? = some request → d.Tracked lib n request

variable {lib}

theorem Tracked.congr (tracked : d.Tracked lib n request) (received : later.received = d.received)
    (phase : later.phase n = d.phase n)
    (sent : sentBy later.sent (.request n) = sentBy d.sent (.request n)) :
    later.Tracked lib n request := by
  rw [Tracked, phase, sent, received]
  exact tracked

/-- A step that is about one request, or about none. -/
theorem Inv.change (inv : d.Inv lib) (about : Nat → Prop) (received : later.received = d.received)
    (script : later.plugin.channelAcceptScript = d.plugin.channelAcceptScript)
    (current : ∀ n, later.loop.request = some n →
      n < d.received.length ∧ later.handlers n = .absent)
    (others : ∀ n, ¬ about n → later.phase n = d.phase n ∧
      sentBy later.sent (.request n) = sentBy d.sent (.request n))
    (handlers : ∀ n, ¬ about n → later.handlers n = d.handlers n)
    (own : ∀ n, about n → n < d.received.length ∧
      ∀ request, d.received[n]? = some request → later.Tracked lib n request) :
    later.Inv lib := by
  refine ⟨?_, ?_, ?_, ?_⟩
  · rw [script, received]
    exact inv.script
  · rw [received]
    exact current
  · intro n outside
    rw [received] at outside
    have other : ¬ about n := fun here => absurd (own n here).1 (Nat.not_lt.mpr outside)
    obtain ⟨nothing, absent⟩ := inv.unread n outside
    exact ⟨(others n other).2.trans nothing, (handlers n other).trans absent⟩
  · intro n request found
    rw [received] at found
    by_cases here : about n
    · exact (own n here).2 request found
    · obtain ⟨phase, sent⟩ := others n here
      exact (inv.tracked n request found).congr received phase sent

theorem Inv.inside (inv : d.Inv lib) (here : d.handlers n ≠ .absent) : n < d.received.length := by
  by_contra outside
  exact here (inv.unread n (Nat.not_lt.mp outside)).2

theorem phase_of_handlers (handlers : later.handlers n = d.handlers n)
    (loop : later.loop.phase n = d.loop.phase n) : later.phase n = d.phase n := by
  rw [phase, handlers, loop]
  rfl

theorem phase_of_writing {messages : List Outgoing} (here : d.handlers n = .writing messages) :
    d.phase n = .writing messages := by
  rw [phase, here]
  rfl

theorem phase_of_logging {text : GoString} {messages : List Outgoing}
    (here : d.handlers n = .logging text messages) : d.phase n = .writing messages := by
  rw [phase, here]
  rfl

theorem phase_of_decided {script : String} (here : d.handlers n = decided lib script request) :
    d.phase n = .writing (openChannelMessages lib script request) := by
  unfold decided at here
  split at here
  · exact phase_of_writing here
  · exact phase_of_logging here

/-- A step that is about no request. -/
theorem Inv.aside (inv : d.Inv lib) (received : later.received = d.received)
    (script : later.plugin.channelAcceptScript = d.plugin.channelAcceptScript)
    (handlers : later.handlers = d.handlers) (loop : later.loop.request = d.loop.request)
    (phases : later.loop.phase = d.loop.phase)
    (sent : ∀ n, sentBy later.sent (.request n) = sentBy d.sent (.request n)) : later.Inv lib := by
  refine inv.change (fun _ => False) received script ?_ ?_ ?_ nofun
  · rw [handlers, loop]
    exact inv.current
  · exact fun n _ =>
      ⟨phase_of_handlers (congrFun handlers n) (congrFun phases n), sent n⟩
  · exact fun n _ => congrFun handlers n

/-- A step of the loop that is about its request. -/
theorem Inv.atLoop (inv : d.Inv lib) (here : d.loop.request = some n)
    (loop : ∀ m, later.loop.request = some m → m = n) (received : later.received = d.received)
    (script : later.plugin.channelAcceptScript = d.plugin.channelAcceptScript)
    (handlers : later.handlers = d.handlers)
    (sent : ∀ m, m ≠ n → sentBy later.sent (.request m) = sentBy d.sent (.request m))
    (own : ∀ request, d.received[n]? = some request → later.Tracked lib n request) :
    later.Inv lib := by
  have current := inv.current n here
  refine inv.change (· = n) received script ?_ ?_ ?_ ?_
  · intro m at_
    obtain rfl := loop m at_
    rwa [handlers]
  · intro m other
    refine ⟨phase_of_handlers (congrFun handlers m) ?_, sent m other⟩
    have before : d.loop.request ≠ some m := by
      rw [here]
      exact fun same => other (Option.some.inj same).symm
    rw [RequestLoop.phase_of_ne before, RequestLoop.phase_of_ne fun at_ => other (loop m at_)]
  · exact fun m _ => congrFun handlers m
  · rintro m rfl
    exact ⟨current.1, own⟩

/-- A step of the goroutine of a request. -/
theorem Inv.atHandler (inv : d.Inv lib) (handler : Handler) (here : d.handlers n ≠ .absent)
    (loop : later.loop = d.loop) (received : later.received = d.received)
    (script : later.plugin.channelAcceptScript = d.plugin.channelAcceptScript)
    (handlers : later.handlers = Function.update d.handlers n handler)
    (sent : ∀ m, m ≠ n → sentBy later.sent (.request m) = sentBy d.sent (.request m))
    (own : ∀ request, d.received[n]? = some request → later.Tracked lib n request) :
    later.Inv lib := by
  have others (m : Nat) (other : m ≠ n) : later.handlers m = d.handlers m := by
    rw [handlers, Function.update_of_ne other]
  refine inv.change (· = n) received script ?_ ?_ others ?_
  · intro m at_
    rw [loop] at at_
    obtain ⟨inside, absent⟩ := inv.current m at_
    have other : m ≠ n := by
      rintro rfl
      exact here absent
    exact ⟨inside, (others m other).trans absent⟩
  · intro m other
    exact ⟨phase_of_handlers (others m other) (by rw [loop]), sent m other⟩
  · rintro m rfl
    exact ⟨inv.inside here, own⟩

/-- One of the messages of a request is written. -/
theorem Tracked.wrote {message : Outgoing} {rest : List Outgoing} (tracked : d.Tracked lib n request)
    (before : d.phase n = .writing (message :: rest)) (now : later.phase n = .writing rest)
    (received : later.received = d.received)
    (sent : later.sent = d.sent ++ [(.request n, message)]) : later.Tracked lib n request := by
  rw [Tracked, before] at tracked
  rw [Tracked, now, received, sent, sentBy_append, if_pos rfl]
  simpa using tracked

/-- It is decided how a request is answered. -/
theorem Tracked.decided {outcome : Outcome} (tracked : d.Tracked lib n request)
    (messages : List Outgoing) (before : d.phase n = .undecided outcome)
    (now : later.phase n = .writing messages) (received : later.received = d.received)
    (sent : later.sent = d.sent)
    (answers : outcomeAt lib d.received n request = outcome →
      Answers lib d.received n request messages) : later.Tracked lib n request := by
  rw [Tracked, before] at tracked
  obtain ⟨nothing, outcome⟩ := tracked
  rw [Tracked, now, received, sent, nothing]
  exact answers outcome

theorem script_sendToCln {c plugin : ClnPlugin} {marshalled : Option GoString}
    (sent : c.sendToCln marshalled = .ok plugin) :
    plugin.channelAcceptScript = c.channelAcceptScript := by
  unfold ClnPlugin.sendToCln at sent
  split at sent
  · split_ifs at sent
    cases sent
    rfl
  · cases sent
    rfl

theorem eq_of_printf {c plugin : ClnPlugin} {text : GoString} (printed : c.printf text = .ok plugin) :
    plugin = c := by
  unfold ClnPlugin.printf at printed
  split_ifs at printed
  exact (Except.ok.inj printed).symm

/-- A call that blocks changes at most whether the log is read. -/
theorem eq_of_blocked {c plugin : ClnPlugin} {text : GoString}
    (blocked : c.printf text = .error plugin) : plugin = { c with scanning := false } := by
  unfold ClnPlugin.printf at blocked
  split_ifs at blocked with scanning fits
  · exact (Except.error.inj blocked).symm
  · cases c
    cases blocked
    simp_all

/-- `sendToCln` changes nothing but the output and whether the plugin is running. -/
structure Sent (d : Dispatcher) (origin : Origin) (message : Outgoing) (after : Dispatcher) :
    Prop where
  script : after.plugin.channelAcceptScript = d.plugin.channelAcceptScript
  loop : after.loop = d.loop
  handlers : after.handlers = d.handlers
  listening : after.listening = d.listening
  received : after.received = d.received
  sent : after.sent = d.sent ++ [(origin, message)]
  forwarded : after.forwarded = d.forwarded
  resolved : after.resolved = d.resolved

theorem Sends.sent {origin : Origin} {message : Outgoing} (sends : Sends d origin message after) :
    Sent d origin message after := by
  cases sends with
  | returned plugin called => exact ⟨script_sendToCln called, rfl, rfl, rfl, rfl, rfl, rfl, rfl⟩
  | broken scanning => exact ⟨rfl, rfl, rfl, rfl, rfl, rfl, rfl, rfl⟩

theorem Sent.others {origin : Origin} {message : Outgoing} (sent : Sent d origin message after)
    {other : Origin} (different : origin ≠ other) : sentBy after.sent other = sentBy d.sent other := by
  rw [sent.sent, sentBy_append, if_neg different, List.append_nil]

theorem phase_of_absent {own : Phase} (absent : d.handlers n = .absent)
    (loop : d.loop.phase n = own) : d.phase n = own := by
  rw [phase, absent]
  exact loop

theorem Inv.write {message : Outgoing} {rest : List Outgoing} (inv : d.Inv lib)
    (here : d.loop = .writing n (message :: rest)) (sent : Sent d (.request n) message after) :
    Inv lib { after with loop := .writing n rest } := by
  have at_ : d.loop.request = some n := by rw [here]; rfl
  refine inv.atLoop at_ ?_ sent.received sent.script sent.handlers ?_ ?_
  · exact fun m same => (Option.some.inj same).symm
  · intro m other
    exact sent.others fun same => other (Origin.request.inj same).symm
  · intro request found
    have before : d.phase n = .writing (message :: rest) := by
      refine phase_of_absent (inv.current n at_).2 ?_
      rw [here]
      exact if_pos rfl
    refine (inv.tracked n request found).wrote before ?_ sent.received sent.sent
    have absent : after.handlers n = .absent := sent.handlers ▸ (inv.current n at_).2
    exact phase_of_absent absent (if_pos rfl)

theorem Inv.finish (inv : d.Inv lib) (here : d.loop = .writing n []) :
    Inv lib { d with loop := .reading } := by
  have at_ : d.loop.request = some n := by rw [here]; rfl
  refine inv.atLoop at_ nofun rfl rfl rfl (fun _ _ => rfl) ?_
  intro request found
  refine (inv.tracked n request found).congr rfl ?_ rfl
  have absent := (inv.current n at_).2
  have before : d.phase n = .writing [] := by
    refine phase_of_absent absent ?_
    rw [here]
    exact if_pos rfl
  rw [before]
  exact phase_of_absent absent rfl

/-- `WaitStarted` returns. -/
theorem Inv.start {address : String} {timeout : Time} {messages : List Outgoing}
    {listening : Listening} (inv : d.Inv lib) (here : d.loop = .starting n address timeout)
    (found : d.received[n]? = some request)
    (answers : outcomeAt lib d.received n request = .start address timeout →
      Answers lib d.received n request messages) :
    Inv lib { d with loop := .writing n messages, listening } := by
  have at_ : d.loop.request = some n := by rw [here]; rfl
  refine inv.atLoop at_ (fun m same => (Option.some.inj same).symm) rfl rfl rfl (fun _ _ => rfl) ?_
  intro other same
  obtain rfl := Option.some.inj (found.symm.trans same)
  have before : d.phase n = .undecided (.start address timeout) := by
    refine phase_of_absent (inv.current n at_).2 ?_
    rw [here]
    exact if_pos rfl
  refine (inv.tracked n request found).decided messages before ?_ rfl rfl answers
  exact phase_of_absent (inv.current n at_).2 (if_pos rfl)

theorem Inv.decide (inv : d.Inv lib) (here : d.handlers n = .deciding)
    (found : d.received[n]? = some request) :
    Inv lib { d with
      handlers := Function.update d.handlers n
        (decided lib d.plugin.channelAcceptScript request) } := by
  have busy : d.handlers n ≠ .absent := by rw [here]; nofun
  refine inv.atHandler _ busy rfl rfl rfl rfl (fun _ _ => rfl) ?_
  intro other same
  obtain rfl := Option.some.inj (found.symm.trans same)
  have before : d.phase n = .undecided .decide := by
    rw [phase, here]
    rfl
  refine (inv.tracked n request found).decided
    (openChannelMessages lib d.plugin.channelAcceptScript request) before ?_ rfl rfl fun outcome => ?_
  · exact phase_of_decided (Function.update_self ..)
  · -- the goroutine reads the script of this moment
    have now := Answers.decide d.received.length outcome (inv.inside busy) (Nat.le_refl _)
    rwa [List.take_length, ← inv.script] at now

theorem Inv.logged {text : GoString} {messages : List Outgoing} (inv : d.Inv lib)
    (here : d.handlers n = .logging text messages) :
    Inv lib { d with handlers := Function.update d.handlers n (.writing messages) } := by
  have busy : d.handlers n ≠ .absent := by rw [here]; nofun
  refine inv.atHandler _ busy rfl rfl rfl rfl (fun _ _ => rfl) ?_
  intro request found
  refine (inv.tracked n request found).congr rfl ?_ rfl
  exact (phase_of_writing (Function.update_self ..)).trans (phase_of_logging here).symm

theorem Inv.reply {message : Outgoing} {rest : List Outgoing} (inv : d.Inv lib)
    (here : d.handlers n = .writing (message :: rest)) (sent : Sent d (.request n) message after) :
    Inv lib { after with handlers := Function.update after.handlers n (.writing rest) } := by
  have busy : d.handlers n ≠ .absent := by rw [here]; nofun
  refine inv.atHandler (.writing rest) busy sent.loop sent.received sent.script ?_ ?_ ?_
  · rw [← sent.handlers]
  · intro m other
    exact sent.others fun same => other (Origin.request.inj same).symm
  · intro request found
    exact (inv.tracked n request found).wrote (phase_of_writing here)
      (phase_of_writing (Function.update_self ..)) sent.received sent.sent

theorem Tracked.append (tracked : d.Tracked lib n request) (inside : n < d.received.length)
    (next : Incoming) (received : later.received = d.received ++ [next])
    (phase : later.phase n = d.phase n) (sent : later.sent = d.sent) :
    later.Tracked lib n request := by
  have within := Nat.le_of_lt inside
  rw [Tracked] at tracked
  rw [Tracked, phase, sent, received]
  cases state : d.phase n with
  | undecided outcome =>
    rw [state] at tracked
    exact ⟨tracked.1, (outcomeAt_append within [next]).trans tracked.2⟩
  | writing messages =>
    rw [state] at tracked
    exact Answers.append tracked within [next]

/-- A request is read. -/
theorem Inv.read (inv : d.Inv lib) (here : d.loop.request = none)
    (received : later.received = d.received ++ [request])
    (script : later.plugin.channelAcceptScript =
      (processRequest lib d.plugin.channelAcceptScript request).1)
    (sent : later.sent = d.sent)
    (loop : ∀ m, later.loop.request = some m →
      m = d.received.length ∧ later.handlers m = .absent)
    (handlers : ∀ m, m ≠ d.received.length → later.handlers m = d.handlers m)
    (own : later.Tracked lib d.received.length request) : later.Inv lib := by
  have length : later.received.length = d.received.length + 1 := by
    rw [received, List.length_append, List.length_singleton]
  refine ⟨?_, ?_, ?_, ?_⟩
  · rw [script, received, scriptAfter, List.foldl_append, ← scriptAfter, ← inv.script]
    rfl
  · intro m at_
    obtain ⟨rfl, absent⟩ := loop m at_
    exact ⟨length ▸ Nat.lt_succ_self _, absent⟩
  · intro m outside
    rw [length] at outside
    obtain ⟨nothing, absent⟩ := inv.unread m (Nat.le_of_succ_le outside)
    exact ⟨sent ▸ nothing, (handlers m (Nat.ne_of_gt outside)).trans absent⟩
  · intro m other found
    rw [received] at found
    rcases Nat.lt_trichotomy m d.received.length with inside | rfl | outside
    · rw [List.getElem?_append_left inside] at found
      have different := Nat.ne_of_lt inside
      refine (inv.tracked m other found).append inside request received ?_ sent
      refine phase_of_handlers (handlers m different) ?_
      rw [RequestLoop.phase_of_ne fun at_ => different (loop m at_).1,
        RequestLoop.phase_of_ne (by rw [here]; nofun)]
    · rw [List.getElem?_concat_length] at found
      obtain rfl := Option.some.inj found
      exact own
    · rw [List.getElem?_eq_none (by rw [← received, length]; exact outside)] at found
      cases found

theorem tracked_of_writing {messages : List Outgoing} (phase : d.phase n = .writing messages)
    (nothing : sentBy d.sent (.request n) = []) (answers : Answers lib d.received n request messages) :
    d.Tracked lib n request := by
  rw [Tracked, phase, nothing]
  exact answers

theorem tracked_of_undecided {outcome : Outcome} (phase : d.phase n = .undecided outcome)
    (nothing : sentBy d.sent (.request n) = [])
    (same : outcomeAt lib d.received n request = outcome) : d.Tracked lib n request := by
  rw [Tracked, phase]
  exact ⟨nothing, same⟩

theorem Inv.take (inv : d.Inv lib) (here : d.loop = .reading) (request : Incoming) :
    (d.take lib request).Inv lib := by
  obtain ⟨nothing, absent⟩ := inv.unread d.received.length (Nat.le_refl _)
  have idle : d.loop.request = none := by rw [here]; rfl
  have now : outcomeAt lib (d.received ++ [request]) d.received.length request =
      (processRequest lib d.plugin.channelAcceptScript request).2 := by
    rw [outcomeAt, List.take_left, inv.script]
  unfold Dispatcher.take
  split
  rename_i script outcome processed
  rw [processed] at now
  have first : script = (processRequest lib d.plugin.channelAcceptScript request).1 := by
    rw [processed]
  cases outcome with
  | answer messages =>
    refine inv.read idle rfl first rfl ?_ (fun _ _ => rfl) ?_
    · rintro m ⟨⟩
      exact ⟨rfl, absent⟩
    · exact tracked_of_writing (phase_of_absent absent (if_pos rfl)) nothing (.answer now)
  | start address timeout =>
    refine inv.read idle rfl first rfl ?_ (fun _ _ => rfl) ?_
    · rintro m ⟨⟩
      exact ⟨rfl, absent⟩
    · exact tracked_of_undecided (phase_of_absent absent (if_pos rfl)) nothing now
  | stop =>
    refine inv.read idle rfl first rfl nofun (fun _ _ => rfl) ?_
    exact tracked_of_writing (phase_of_absent absent rfl) nothing (.stop now)
  | forward id htlc =>
    refine inv.read idle rfl first rfl nofun (fun _ _ => rfl) ?_
    exact tracked_of_writing (phase_of_absent absent rfl) nothing (.forward now)
  | decide =>
    have reading (m : Nat) : d.loop.request ≠ some m := by rw [idle]; nofun
    refine inv.read idle rfl first rfl (fun m at_ => absurd at_ (reading m)) ?_ ?_
    · exact fun m other => Function.update_of_ne other ..
    · refine tracked_of_undecided ?_ nothing now
      rw [phase]
      simp only [Function.update_self]
      rfl

theorem Inv.step {action : Action} (inv : d.Inv lib) (step : Step lib d action later) :
    later.Inv lib := by
  cases step with
  | take request here running => exact inv.take here request
  | quit here _ | shutdown here _ =>
    exact inv.aside rfl rfl rfl (by rw [here]; rfl) (by rw [here]; rfl) fun _ => rfl
  | write here sends => exact inv.write here sends.sent
  | finish here => exact inv.finish here
  | started here found first => exact inv.start here found .started
  | startError err here found => exact inv.start here found (.startError err)
  | forward here => exact inv.aside rfl rfl rfl (by rw [here]; rfl) (by rw [here]; rfl) fun _ => rfl
  | drop here stopped =>
    exact inv.aside rfl rfl rfl (by rw [here]; rfl) (by rw [here]; rfl) fun _ => rfl
  | decide n here found => exact inv.decide here found
  | logged n here plugin printed =>
    obtain rfl := eq_of_printf printed
    exact inv.logged here
  | jam n here plugin blocked =>
    obtain rfl := eq_of_blocked blocked
    exact inv.aside rfl rfl rfl rfl rfl fun _ => rfl
  | reply n here sends => exact inv.reply here sends.sent
  | receive msg here => exact inv.aside rfl rfl rfl rfl rfl fun _ => rfl
  | resolve here sends =>
    have sent := sends.sent
    exact inv.aside sent.received sent.script sent.handlers (by rw [← sent.loop])
      (by rw [← sent.loop]) fun n => sent.others nofun
  | leave here stopped => exact inv.aside rfl rfl rfl rfl rfl fun _ => rfl
  | info line plugin called =>
    have sends : Sends d .info (.log "info" line) _ := .returned plugin called
    have sent := sends.sent
    exact inv.aside rfl sent.script rfl rfl rfl fun n => sent.others nofun
  | mute | stop _ => exact inv.aside rfl rfl rfl rfl rfl fun _ => rfl

theorem Inv.initial : (initial : Dispatcher).Inv lib :=
  ⟨rfl, nofun, fun _ _ => ⟨rfl, rfl⟩, nofun⟩

end Dispatcher

end Lspd.Plugin
