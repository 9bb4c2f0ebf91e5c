import Lspd.Cln.Onion
import Lspd.Interceptor.Replies
import Lspd.Plugin.Traffic

/-! The way of an htlc from cln through the plugin and the interceptor of lspd and
back, over streams that break and are opened again. The plugin, any number of lspd
processes and the messages under way between them are one machine. -/

namespace Lspd.Cln

open Lspd.Common Lspd.Interceptor Lspd.Lightning Lspd.Plugin Lspd.Process

/-- The message that `sendHtlcAccepted` sends. -/
def protoHtlcAccepted (id : String) (htlc : Plugin.HtlcAccepted) : HtlcAccepted :=
  { correlationid := id
    onion := some htlc.onion
    htlc := htlc.htlc }

/-- An lspd process: its interceptor, the stream that the loop reads from, and the
stream that each request came from, on which it will be answered. -/
structure Client where
  interceptor : Interceptor.Stream HtlcAccepted HtlcResolution
  stream : Option StreamId
  origins : List StreamId

/-- The plugin and the lspd processes, with the messages under way on each stream in
both directions. `owners` has the process that opened each stream. -/
structure Relay where
  plugin : Plugin.State
  clients : Nat → Client
  owners : List Nat
  forth : StreamId → List HtlcAccepted
  back : StreamId → List HtlcResolution
  /-- The htlcs cln has asked about. -/
  requested : List (String × Plugin.HtlcAccepted)
  /-- The results cln was given. -/
  responded : List HtlcResultMsg
  /-- The ids of the answers read from each stream. -/
  replied : StreamId → List String

namespace Relay

inductive Action where
  | plugin (action : Plugin.Action)
  | client (k : Nat)

/-- A step of an interceptor that exchanges nothing with the plugin. -/
structure Quiet (before after : Interceptor.Stream HtlcAccepted HtlcResolution) : Prop where
  receives : after.handlings.length = before.handlings.length
  sends : ∀ (n : Nat) response, before.handlings[n]? = some (.sending (some response)) →
    after.handlings[n]? = some (.sending (some response))
  connects : before.loop = .connecting → after.loop ≠ .checking

def setClient (s : Relay) (k : Nat) (client : Client) : Relay :=
  { s with clients := Function.update s.clients k client }

/-- The plugin acts, and `back` is what it leaves on the streams to it. -/
def exchange (s : Relay) (action : Plugin.Action) (after : Plugin.State)
    (back : StreamId → List HtlcResolution) : Relay :=
  { s with
    plugin := after
    forth := fun stream => s.forth stream ++
      (s.plugin.puts stream action).map fun msg => protoHtlcAccepted msg.id msg.htlc
    back
    requested := s.requested ++ action.asks
    responded := s.responded ++ s.plugin.returns action
    replied := fun stream => s.replied stream ++
      (s.plugin.reads stream action).map HtlcResolution.correlationid }

/-- Messages stay in order on a stream. Those on a broken one are not read any more, and
stay on it. -/
inductive Step (cln : ClnHtlcInterceptor) (answers : InterceptRequest → InterceptResult → Prop)
    (s : Relay) : Action → Relay → Prop where
  | plugin (back : StreamId → List HtlcResolution)
      (step : Plugin.Step s.plugin action after)
      (opened : ∀ stream ∈ action.opens, stream < s.owners.length)
      (read : ∀ stream, s.back stream = s.plugin.reads stream action ++ back stream) :
      Step cln answers s (.plugin action) (s.exchange action after back)
  | connect (k : Nat) (here : (s.clients k).interceptor.loop = .connecting)
      (alive : (s.clients k).interceptor.cancelled = false) :
      Step cln answers s (.client k)
        { s.setClient k
            { s.clients k with
              interceptor := { (s.clients k).interceptor with loop := .checking }
              stream := some s.owners.length } with
          owners := s.owners ++ [k] }
  | receive (k : Nat) (here : (s.clients k).interceptor.loop = .receiving)
      (reading : (s.clients k).stream = some stream) (wire : s.forth stream = request :: rest) :
      Step cln answers s (.client k)
        { s.setClient k
            { s.clients k with
              interceptor := { (s.clients k).interceptor with
                loop := .holding (s.clients k).interceptor.handlings.length
                handlings := (s.clients k).interceptor.handlings ++ [.held request] }
              origins := (s.clients k).origins ++ [stream] } with
          forth := Function.update s.forth stream rest }
  | send (k n : Nat)
      (here : (s.clients k).interceptor.handlings[n]? = some (.sending (some response)))
      (origin : (s.clients k).origins[n]? = some stream) :
      Step cln answers s (.client k)
        { s.setClient k
            { s.clients k with
              interceptor := (s.clients k).interceptor.set n (.finishing (some response)) } with
          back := Function.update s.back stream (s.back stream ++ [response]) }
  | move (k : Nat) (step : Interceptor.Stream.Step cln.backend answers (s.clients k).interceptor action after)
      (quiet : Quiet (s.clients k).interceptor after) :
      Step cln answers s (.client k) (s.setClient k { s.clients k with interceptor := after })

/-- A plugin that was just started, and lspd processes that are starting. -/
def initial (subscriberTimeout now : Time) : Relay where
  plugin := .start subscriberTimeout now
  clients _ := ⟨Interceptor.Stream.initial, none, []⟩
  owners := []
  forth _ := []
  back _ := []
  requested := []
  responded := []
  replied _ := []

def relay (cln : ClnHtlcInterceptor) (answers : InterceptRequest → InterceptResult → Prop) :
    Machine Relay Action where
  Initial s := ∃ subscriberTimeout now, s = initial subscriberTimeout now
  Step := Step cln answers

variable {cln : ClnHtlcInterceptor} {answers : InterceptRequest → InterceptResult → Prop}
  {s later : Relay} {action : Action}

/-- Each process runs its interceptor, whatever the others do. -/
theorem Step.client (step : Step cln answers s action later) (k : Nat) :
    (later.clients k).interceptor = (s.clients k).interceptor ∨
      ∃ action, Interceptor.Stream.Step cln.backend answers (s.clients k).interceptor action
        (later.clients k).interceptor := by
  cases step with
  | plugin back step opened read => exact .inl rfl
  | connect other here alive =>
    by_cases same : k = other
    · subst same
      refine .inr ⟨.internal, ?_⟩
      simp only [setClient, Function.update_self]
      exact .connect here alive
    · exact .inl (by simp [setClient, same])
  | receive other here reading wire =>
    by_cases same : k = other
    · subst same
      refine .inr ⟨.received, ?_⟩
      simp only [setClient, Function.update_self]
      exact .receive _ here
    · exact .inl (by simp [setClient, same])
  | send other n here origin =>
    by_cases same : k = other
    · subst same
      refine .inr ⟨.internal, ?_⟩
      simp only [setClient, Function.update_self]
      exact .send n here
    · exact .inl (by simp [setClient, same])
  | move other step quiet =>
    by_cases same : k = other
    · subst same
      simp only [setClient, Function.update_self]
      exact .inr ⟨_, step⟩
    · exact .inl (by simp [setClient, same])

theorem client_reachable (reachable : (relay cln answers).Reachable s) (k : Nat) :
    (Interceptor.Stream.stream cln.backend answers).Reachable (s.clients k).interceptor := by
  refine Machine.Reachable.induct (fun s => (Interceptor.Stream.stream cln.backend answers).Reachable
    (s.clients k).interceptor) ?_ ?_ reachable
  · rintro _ ⟨subscriberTimeout, now, rfl⟩
    exact .start rfl
  · intro s action later _ before step
    rcases step.client k with same | ⟨_, taken⟩
    · exact same ▸ before
    · exact before.step taken

section sample

/-- The first part of the sample payment, as cln sends it. -/
def samplePart : Plugin.HtlcAccepted :=
  { onion := ⟨encodeToString (24 :: sampleInner), some "0x0x7", some 50000000, some 500, some "1",
      none⟩
    htlc := ⟨"1x1x1", 0, 51000000, 1000, 500, encodeToString sampleHash⟩
    forwardTo := "" }

/-- The text of a channel id is that of the txid, with the index in its last two bytes. -/
def channelIdText (channelPoint : OutPoint) : String :=
  encodeToString (channelPoint.hash.val.take 30 ++
    List.zipWith (· ^^^ ·) (channelPoint.hash.val.drop 30)
      (bigEndian 2 (channelPoint.index.toNat % 2 ^ 16)))

def sampleRewriting : ClnHtlcInterceptor := clnHtlcInterceptor sampleOrders channelIdText

/-- The payload for 49000000 msat over the channel 0x0x5. -/
def samplePayload : Bytes :=
  [2, 4, 2, 235, 174, 64, 4, 1, 144, 6, 8, 0, 0, 0, 0, 0, 0, 0, 5, 0xfe, 0, 1, 0, 1, 2, 1, 2]

def sampleResolution : HtlcResolution :=
  ⟨"1", .continue (some (encodeToString samplePayload))
    (some (encodeToString sampleScene.channelPoint.hash.val))⟩

theorem sample_resolved : sampleRewriting.backend.respond (protoHtlcAccepted "1" samplePart)
    (sampleResult 49000000) = some sampleResolution := by
  have encoded : sampleRewriting.encodePayloadWithNextHop (24 :: sampleInner) 5 49000000 none =
      some samplePayload := by
    refine encoded_eq_some.mpr (encodePayloadWithNextHop_eq_value.mpr
      ⟨sampleInner, sampleRecords, ⟨⟨[], by decide⟩, by decide⟩, by decide, ⟨by decide, by decide⟩, ?_⟩)
    decide
  have channel : channelIdText sampleScene.channelPoint =
      encodeToString sampleScene.channelPoint.hash.val := by decide
  change some (sampleRewriting.resumeWithOnion (protoHtlcAccepted "1" samplePart) samplePart.onion
    (sampleResult 49000000)) = _
  have payload : decodeString samplePart.onion.payload = some (24 :: sampleInner) :=
    decodeString_encodeToString _
  have result : (sampleResult 49000000).scid = 5 ∧ (sampleResult 49000000).amountMsat = 49000000 ∧
      (sampleResult 49000000).feeMsat = none := ⟨rfl, rfl, rfl⟩
  simp only [ClnHtlcInterceptor.resumeWithOnion, payload, result, encoded]
  change some (HtlcResolution.mk "1" (.continue _ (some (channelIdText sampleScene.channelPoint)))) = _
  rw [channel]
  rfl

theorem sample_asked : sampleRewriting.backend.prepare (protoHtlcAccepted "1" samplePart) =
    .ok (Interceptor.samplePart 50000000 51000000) := by
  decide

/-- A step of the plugin that reads nothing. -/
theorem reachable_plugin (reachable : (relay cln answers).Reachable s) {action : Plugin.Action}
    {after : Plugin.State} (step : Plugin.Step s.plugin action after)
    (opened : ∀ stream ∈ action.opens, stream < s.owners.length)
    (silent : ∀ stream, s.plugin.reads stream action = []) :
    (relay cln answers).Reachable (s.exchange action after s.back) :=
  reachable.step (.plugin s.back step opened fun stream => by rw [silent]; rfl)

/-- The plugin reads the next answer on the stream it receives from. -/
theorem reachable_answer (reachable : (relay cln answers).Reachable s) (stream : StreamId)
    {id : String} {outcome : HtlcOutcome} {rest : List HtlcResolution}
    (receiving : s.plugin.responses = .receiving stream)
    (wired : s.back stream = ⟨id, outcome⟩ :: rest) :
    (relay cln answers).Reachable (s.exchange (.answer id outcome)
      { s.plugin with responses := .resolved id outcome, answered := s.plugin.answered ++ [id] }
      (Function.update s.back stream rest)) := by
  refine reachable.step (.plugin _ (.answer id outcome receiving) nofun ?_)
  intro other
  simp only [State.reads, receiving, Responses.receiving.injEq]
  by_cases same : other = stream
  · subst same
    simp [wired]
  · simp [Function.update_of_ne same, Ne.symm same]

theorem quiet_single {before after : Interceptor.Stream HtlcAccepted HtlcResolution}
    {handling next : Handling HtlcAccepted HtlcResolution} (one : before.handlings = [handling])
    (later : after.handlings = [next]) (connected : before.loop ≠ .connecting)
    (silent : ∀ response, handling ≠ .sending (some response)) : Quiet before after := by
  refine ⟨by rw [one, later]; rfl, ?_, fun here => absurd here connected⟩
  intro n response sending
  rw [one, List.getElem?_singleton] at sending
  split_ifs at sending
  exact absurd (Option.some.inj sending) (silent response)

/-- The part of the sample payment, once it was sent to a process that has subscribed,
and what cln is told after that process has decided. -/
theorem sample_relayed : ∃ s later, (relay sampleRewriting sampleAnswers).Reachable s ∧
    (relay sampleRewriting sampleAnswers).Reachable later ∧
    s.owners = [0] ∧ s.plugin.sent 0 = ["1"] ∧ s.plugin.htlcStream = some 0 ∧
    later.responded = [⟨"1", mapHtlcResult sampleResolution.outcome⟩] := by
  have begun : (relay sampleRewriting sampleAnswers).Reachable (initial 100 0) := .start ⟨100, 0, rfl⟩
  have connected := begun.step (.connect 0 rfl rfl)
  have checked := connected.step (.move 0 (.check rfl rfl) ⟨rfl, nofun, nofun⟩)
  have receiving := checked.step (.move 0 (.proceed rfl rfl) ⟨rfl, nofun, nofun⟩)
  have called := reachable_plugin receiving (.call "1" samplePart (by decide)) nofun fun _ => rfl
  have queued := reachable_plugin called (.enqueue (.head _) (by decide)) nofun fun _ => rfl
  have subscribed := reachable_plugin queued (.subscribe 0 rfl rfl (.inl rfl)) (by decide) fun _ => rfl
  have taken := reachable_plugin subscribed (.take rfl rfl) nofun fun _ => rfl
  have sampled := reachable_plugin taken (.sampleStream rfl rfl) nofun fun _ => rfl
  have delivered := reachable_plugin sampled (.deliver rfl rfl) nofun fun _ => rfl
  have received := delivered.step (.receive 0 rfl rfl rfl)
  have started := received.step (.move 0 (.start 0 rfl rfl) (quiet_single rfl rfl nofun nofun))
  have asked := started.step (.move 0 (.ask 0 rfl sample_asked) (quiet_single rfl rfl nofun nofun))
  have answered := asked.step
    (.move 0 (.answer 0 rfl sample_answers) (quiet_single rfl rfl nofun nofun))
  have sending := congrArg (fun response => some (@Handling.sending HtlcAccepted _ response))
    sample_resolved
  have sent := answered.step (.send 0 0 sending rfl)
  have polled := reachable_plugin sent (.pollStream rfl rfl) nofun fun _ => rfl
  have read := reachable_answer polled 0 rfl rfl
  have pushed := reachable_plugin read (.push rfl (by decide)) nofun fun _ => rfl
  have returned := reachable_plugin pushed (.dequeue rfl) nofun fun _ => rfl
  exact ⟨_, _, delivered, returned, rfl, rfl, rfl, rfl⟩

end sample

section Faithful

theorem resumeWithOnion_correlationid (request : HtlcAccepted) (onion : Onion)
    (result : InterceptResult) :
    (cln.resumeWithOnion request onion result).correlationid = request.correlationid := by
  unfold ClnHtlcInterceptor.resumeWithOnion
  split
  · rfl
  · split
    · rfl
    · split <;> rfl

/-- An answer carries the correlation id of its request. -/
theorem replies_correlationid {request : HtlcAccepted} {response : HtlcResolution}
    (replies : Replies cln.backend answers request response) :
    response.correlationid = request.correlationid := by
  cases replies with
  | atOnce known =>
    simp only [ClnHtlcInterceptor.backend, ClnHtlcInterceptor.interceptRequest] at known
    split at known
    · split_ifs at known
      · exact Except.error.inj known ▸ rfl
      · split at known
        · exact Except.error.inj known ▸ rfl
        · cases known
    · exact Except.error.inj known ▸ rfl
  | decided req result asked answered responded =>
    simp only [ClnHtlcInterceptor.backend, ClnHtlcInterceptor.respond] at responded
    split at responded
    · obtain ⟨onion, _, rfl⟩ := Option.map_eq_some_iff.mp responded
      exact resumeWithOnion_correlationid request onion result
    · exact Option.some.inj responded ▸ rfl
    · cases responded
    · exact Option.some.inj responded ▸ rfl

/-- The requests that cln's htlcs are for the interceptor. -/
def asked (s : Relay) : List HtlcAccepted :=
  s.requested.map fun (id, htlc) => protoHtlcAccepted id htlc

/-- A result that cln may get for an id: the default one, or what its own request was
answered with. -/
def Given (cln : ClnHtlcInterceptor) (answers : InterceptRequest → InterceptResult → Prop)
    (asked : List HtlcAccepted) (id : String) (result : HtlcResult) : Prop :=
  ∃ request ∈ asked, request.correlationid = id ∧
    (result = defaultResult ∨
      ∃ response, Replies cln.backend answers request response ∧
        result = mapHtlcResult response.outcome)

/-- Nothing in the plugin, on the wires or in the interceptors is about an htlc that
cln did not send, and every answer is one to its own request. -/
structure Faithful (cln : ClnHtlcInterceptor) (answers : InterceptRequest → InterceptResult → Prop)
    (s : Relay) : Prop where
  ids : s.requested.map Prod.fst = s.plugin.called
  once : s.plugin.called.Nodup
  messages : ∀ msg ∈ s.plugin.messages, (msg.id, msg.htlc) ∈ s.requested
  forth : ∀ stream, ∀ request ∈ s.forth stream, request ∈ s.asked
  handlings : ∀ k, ∀ handling ∈ (s.clients k).interceptor.handlings,
    ∃ request ∈ s.asked, handling.Of cln.backend answers request
  back : ∀ stream, ∀ response ∈ s.back stream,
    ∃ request ∈ s.asked, Replies cln.backend answers request response
  resolved : ∀ id outcome, s.plugin.responses = .resolved id outcome →
    Given cln answers s.asked id (mapHtlcResult outcome)
  results : ∀ msg ∈ s.plugin.htlcRecvQueue ++ s.responded,
    Given cln answers s.asked msg.id msg.result

theorem Given.mono {asked more : List HtlcAccepted} {id : String} {result : HtlcResult}
    (given : Given cln answers asked id result) (grown : asked ⊆ more) :
    Given cln answers more id result := by
  obtain ⟨request, member, rest⟩ := given
  exact ⟨request, grown member, rest⟩

theorem given_default {id : String} {htlc : Plugin.HtlcAccepted} (known : (id, htlc) ∈ s.requested) :
    Given cln answers s.asked id defaultResult :=
  ⟨protoHtlcAccepted id htlc, List.mem_map_of_mem known, rfl, .inl rfl⟩

/-- The id in hand of the plugin is one of cln's. -/
theorem Faithful.known (faithful : Faithful cln answers s) {id : String}
    (held : ∃ msg ∈ s.plugin.messages, msg.id = id) : Given cln answers s.asked id defaultResult := by
  obtain ⟨msg, member, rfl⟩ := held
  exact given_default (faithful.messages msg member)

theorem asked_exchange (s : Relay) (action : Plugin.Action) (after : Plugin.State)
    (back : StreamId → List HtlcResolution) : s.asked ⊆ (s.exchange action after back).asked := by
  intro request member
  simp only [asked, exchange, List.map_append]
  exact List.mem_append_left _ member

theorem Faithful.exchange (faithful : Faithful cln answers s) {action : Plugin.Action}
    {after : Plugin.State} {back : StreamId → List HtlcResolution}
    (step : Plugin.Step s.plugin action after)
    (read : ∀ stream, s.back stream = s.plugin.reads stream action ++ back stream) :
    Faithful cln answers (s.exchange action after back) := by
  have grown := asked_exchange s action after back
  obtain ⟨called, once⟩ := step.called faithful.once
  constructor
  case ids => exact (List.map_append ..).trans (faithful.ids ▸ called.symm)
  case once => exact once
  case messages =>
    intro msg held
    rcases step.messages held with ⟨old, member, id, htlc⟩ | new
    · exact List.mem_append_left _ (id ▸ htlc ▸ faithful.messages old member)
    · exact List.mem_append_right _ new
  case forth =>
    intro stream request wired
    rcases List.mem_append.mp wired with old | new
    · exact grown (faithful.forth stream request old)
    · obtain ⟨msg, put, rfl⟩ := List.mem_map.mp new
      exact grown (List.mem_map_of_mem (faithful.messages msg (State.mem_of_mem_puts put)))
  case handlings =>
    intro k handling member
    obtain ⟨request, known, ours⟩ := faithful.handlings k handling member
    exact ⟨request, grown known, ours⟩
  case back =>
    intro stream response wired
    obtain ⟨request, known, replies⟩ := faithful.back stream response
      (read stream ▸ List.mem_append_right _ wired)
    exact ⟨request, grown known, replies⟩
  case resolved =>
    intro id outcome resolved
    rcases step.resolved resolved with before | ⟨rfl, held⟩ | rfl
    · exact (faithful.resolved id outcome before).mono grown
    · exact (faithful.known held).mono grown
    · obtain ⟨stream, received⟩ := step.reads
      obtain ⟨request, known, replies⟩ := faithful.back stream ⟨id, outcome⟩
        (read stream ▸ List.mem_append_left _ received)
      exact ⟨request, grown known, (replies_correlationid replies).symm, .inr ⟨_, replies, rfl⟩⟩
  case results =>
    intro msg member
    rcases List.mem_append.mp member with queued | returned
    · rcases step.results queued with old | ⟨default, held⟩ | ⟨outcome, resolved, result⟩
      · exact (faithful.results msg (List.mem_append_left _ old)).mono grown
      · exact default ▸ (faithful.known held).mono grown
      · exact result ▸ (faithful.resolved msg.id outcome resolved).mono grown
    · rcases List.mem_append.mp returned with old | new
      · exact (faithful.results msg (List.mem_append_right _ old)).mono grown
      · exact (faithful.results msg (List.mem_append_left _ (State.mem_of_mem_returns new))).mono grown

/-- A step of one process that leaves the plugin alone. -/
theorem Faithful.client (faithful : Faithful cln answers s) (k : Nat) (client : Client)
    {owners : List Nat} {forth : StreamId → List HtlcAccepted}
    {back : StreamId → List HtlcResolution}
    (handlings : ∀ handling ∈ client.interceptor.handlings,
      ∃ request ∈ s.asked, handling.Of cln.backend answers request)
    (wired : ∀ stream, ∀ request ∈ forth stream, request ∈ s.asked)
    (sent : ∀ stream, ∀ response ∈ back stream,
      ∃ request ∈ s.asked, Replies cln.backend answers request response) :
    Faithful cln answers { s.setClient k client with owners, forth, back } := by
  refine ⟨faithful.ids, faithful.once, faithful.messages, wired, ?_, sent, faithful.resolved,
    faithful.results⟩
  intro other handling member
  by_cases same : other = k
  · subst same
    simp only [setClient, Function.update_self] at member
    exact handlings handling member
  · simp only [setClient, Function.update_of_ne same] at member
    exact faithful.handlings other handling member

/-- A handler of one process goes on. -/
theorem Faithful.moves (faithful : Faithful cln answers s) {k n : Nat}
    {before after : Handling HtlcAccepted HtlcResolution}
    (here : (s.clients k).interceptor.handlings[n]? = some before)
    (moves : Handling.Moves cln.backend answers before after) :
    ∀ handling ∈ (s.clients k).interceptor.handlings.set n after,
      ∃ request ∈ s.asked, handling.Of cln.backend answers request := by
  intro handling member
  rcases List.mem_or_eq_of_mem_set member with old | rfl
  · exact faithful.handlings k handling old
  · obtain ⟨request, known, ours⟩ := faithful.handlings k before (List.mem_of_getElem? here)
    exact ⟨request, known, ours.moves moves⟩

theorem Faithful.step (faithful : Faithful cln answers s) (step : Step cln answers s action later) :
    Faithful cln answers later := by
  cases step with
  | plugin back step opened read => exact faithful.exchange step read
  | connect k here alive =>
    exact faithful.client k _ (faithful.handlings k) faithful.forth faithful.back
  | @receive stream request rest k here reading wire =>
    have arrived := faithful.forth stream
    rw [wire, List.forall_mem_cons] at arrived
    refine faithful.client k _ ?_ ?_ faithful.back
    · intro handling member
      rcases List.mem_append.mp member with old | new
      · exact faithful.handlings k handling old
      · obtain rfl := List.mem_singleton.mp new
        exact ⟨request, arrived.1, rfl⟩
    · exact (Function.forall_update_iff s.forth fun _ wired => ∀ request ∈ wired, request ∈ s.asked).mpr
        ⟨arrived.2, fun other _ => faithful.forth other⟩
  | @send response stream k n here origin =>
    refine faithful.client k _ (faithful.moves here (.send _)) faithful.forth ?_
    refine (Function.forall_update_iff s.back fun _ wired => ∀ response ∈ wired,
      ∃ request ∈ s.asked, Replies cln.backend answers request response).mpr
        ⟨?_, fun other _ => faithful.back other⟩
    intro reply member
    rcases List.mem_append.mp member with old | new
    · exact faithful.back stream reply old
    · obtain rfl := List.mem_singleton.mp new
      obtain ⟨request, known, ours⟩ := faithful.handlings k _ (List.mem_of_getElem? here)
      exact ⟨request, known, ours _ rfl⟩
  | @move _ after k step quiet =>
    refine faithful.client k _ ?_ faithful.forth faithful.back
    rcases step.handlings_cases with
      ⟨_, same⟩ | ⟨_, request, grown⟩ | ⟨_, n, before, next, here, moves, set⟩
    · exact same ▸ faithful.handlings k
    · have length := quiet.receives
      simp [grown] at length
    · exact set ▸ faithful.moves here moves

end Faithful

section Registered

variable {sha256 : Bytes → Bytes} {i : Interceptor} {world : World}

variable {orders : MapOrders} {chanIdString : OutPoint → String}

end Registered

end Relay

end Lspd.Cln
