import Lspd.Cln.Relay

/-! Where the htlcs are that the plugin sent: each is under way, with a handler of an lspd
process, or answered, and none is lost or doubled on a stream. -/

namespace Lspd.Cln.Relay

open Lspd.Common Lspd.Interceptor Lspd.Lightning Lspd.Plugin Lspd.Process

variable {cln : ClnHtlcInterceptor} {answers : InterceptRequest → InterceptResult → Prop}
  {s later : Relay} {action : Action}

/-- The id of a request that has no answer on the wire yet. -/
def waits : Handling HtlcAccepted HtlcResolution → List String
  | .held request | .started request | .intercepting request _ => [request.correlationid]
  | .sending response => (response.map HtlcResolution.correlationid).toList
  | .finishing _ | .ended _ => []

/-- The ids of the requests from a stream that have no answer on the wire yet. -/
def pending (stream : StreamId) : List (Handling HtlcAccepted HtlcResolution) → List StreamId →
    List String
  | handling :: rest, origin :: origins =>
    (if origin = stream then waits handling else []) ++ pending stream rest origins
  | _, _ => []

def unanswered (client : Client) (stream : StreamId) : List String :=
  pending stream client.interceptor.handlings client.origins

theorem pending_append (stream : StreamId) {handlings : List (Handling HtlcAccepted HtlcResolution)}
    {origins : List StreamId} (same : origins.length = handlings.length)
    (handling : Handling HtlcAccepted HtlcResolution) (origin : StreamId) :
    pending stream (handlings ++ [handling]) (origins ++ [origin]) =
      pending stream handlings origins ++ if origin = stream then waits handling else [] := by
  induction handlings generalizing origins with
  | nil =>
    obtain rfl := List.length_eq_zero_iff.mp same
    simp [pending]
  | cons first rest ih =>
    cases origins with
    | nil => cases same
    | cons one others => simp [pending, ih (Nat.succ.inj same), List.append_assoc]

/-- When a handler goes on, the ids of the others stay where they are. -/
theorem pending_set (stream : StreamId) {handlings : List (Handling HtlcAccepted HtlcResolution)}
    {origins : List StreamId} {n : Nat} {before : Handling HtlcAccepted HtlcResolution}
    {origin : StreamId} (here : handlings[n]? = some before) (from_ : origins[n]? = some origin)
    (after : Handling HtlcAccepted HtlcResolution) (id : String) :
    (pending stream (handlings.set n after) origins).count id +
        (if origin = stream then waits before else []).count id =
      (pending stream handlings origins).count id +
        (if origin = stream then waits after else []).count id := by
  induction handlings generalizing n origins with
  | nil => simp at here
  | cons first rest ih =>
    cases origins with
    | nil => simp at from_
    | cons one others =>
      cases n with
      | zero =>
        simp only [List.getElem?_cons_zero, Option.some.injEq] at here from_
        subst here from_
        simp only [List.set_cons_zero, pending, List.count_append]
        omega
      | succ n =>
        rw [List.getElem?_cons_succ] at here from_
        have rest := ih here from_
        simp only [List.set_cons_succ, pending, List.count_append]
        omega

theorem pending_eq_nil {stream : StreamId} {handlings : List (Handling HtlcAccepted HtlcResolution)}
    {origins : List StreamId} (other : stream ∉ origins) : pending stream handlings origins = [] := by
  induction handlings generalizing origins with
  | nil => rfl
  | cons first rest ih =>
    cases origins with
    | nil => rfl
    | cons one others =>
      obtain ⟨different, elsewhere⟩ := not_or.mp (mt List.mem_cons.mpr other)
      simp [pending, Ne.symm different, ih elsewhere]

/-- Every htlc sent on a stream is at one place: on its way to the process that opened
the stream, with a handler there, on its way back, or with the plugin again. -/
structure Accounted (s : Relay) : Prop where
  ordered : Ordered s.plugin
  registered : Plugin.Registered s.plugin
  unused : ∀ stream, s.plugin.subscription stream = .fresh → s.plugin.sent stream = []
  unopened : ∀ stream, s.owners.length ≤ stream → s.plugin.subscription stream = .fresh ∧
    s.forth stream = [] ∧ s.back stream = [] ∧ s.replied stream = []
  origins : ∀ k, (s.clients k).origins.length = (s.clients k).interceptor.handlings.length
  reading : ∀ k stream, (s.clients k).stream = some stream → s.owners[stream]? = some k
  owned : ∀ k, ∀ stream ∈ (s.clients k).origins, s.owners[stream]? = some k
  total : ∀ stream k, s.owners[stream]? = some k → ∀ id, (s.plugin.sent stream).count id =
    ((s.forth stream).map HtlcAccepted.correlationid).count id +
      (unanswered (s.clients k) stream).count id +
      ((s.back stream).map HtlcResolution.correlationid).count id + (s.replied stream).count id

theorem Accounted.exchange (accounted : Accounted s) {action : Plugin.Action}
    {after : Plugin.State} {back : StreamId → List HtlcResolution}
    (step : Plugin.Step s.plugin action after)
    (opened : ∀ stream ∈ action.opens, stream < s.owners.length)
    (read : ∀ stream, s.back stream = s.plugin.reads stream action ++ back stream) :
    Accounted (s.exchange action after back) := by
  have ordered := accounted.ordered
  have registered := accounted.registered
  have sent : ∀ stream, after.sent stream =
      s.plugin.sent stream ++ (s.plugin.puts stream action).map HtlcAcceptedMsg.id :=
    step.sent accounted.unused
  constructor
  case ordered => exact ordered.step step
  case registered => exact registered.step ordered step
  case unused =>
    intro stream fresh
    obtain ⟨before, elsewhere⟩ := step.still_fresh fresh
    have none : s.plugin.puts stream action = [] := step.puts_fresh registered before elsewhere
    refine (sent stream).trans ?_
    rw [none, accounted.unused stream before]
    rfl
  case unopened =>
    intro stream beyond
    obtain ⟨fresh, forth, wired, replied⟩ := accounted.unopened stream beyond
    have elsewhere : stream ∉ action.opens := fun member =>
      Nat.not_le.mpr (opened stream member) beyond
    have none : s.plugin.puts stream action = [] := step.puts_fresh registered fresh elsewhere
    have empty := (read stream).symm.trans wired
    obtain ⟨reads, left⟩ := List.append_eq_nil_iff.mp empty
    refine ⟨step.stays_fresh fresh elsewhere, ?_, left, ?_⟩
    · simp [Relay.exchange, forth, none]
    · simp [Relay.exchange, replied, reads]
  case origins => exact accounted.origins
  case reading => exact accounted.reading
  case owned => exact accounted.owned
  case total =>
    intro stream k owner id
    have before := accounted.total stream k owner id
    simp only [read stream, List.map_append, List.count_append] at before
    simp only [Relay.exchange, sent stream, List.map_append, List.map_map, List.count_append]
    have puts : (s.plugin.puts stream action).map (HtlcAccepted.correlationid ∘ fun msg =>
        protoHtlcAccepted msg.id msg.htlc) = (s.plugin.puts stream action).map HtlcAcceptedMsg.id := rfl
    rw [puts]
    omega

/-- A process acts on the streams it opened, and passes on all that it takes. -/
theorem Accounted.client (accounted : Accounted s) {k : Nat} (client : Client)
    (forth : StreamId → List HtlcAccepted) (back : StreamId → List HtlcResolution)
    (origins : client.origins.length = client.interceptor.handlings.length)
    (reading : client.stream = (s.clients k).stream)
    (owned : ∀ stream ∈ client.origins, s.owners[stream]? = some k)
    (elsewhere : ∀ stream, s.owners[stream]? ≠ some k →
      forth stream = s.forth stream ∧ back stream = s.back stream)
    (total : ∀ stream id, ((forth stream).map HtlcAccepted.correlationid).count id +
        (unanswered client stream).count id +
        ((back stream).map HtlcResolution.correlationid).count id =
      ((s.forth stream).map HtlcAccepted.correlationid).count id +
        (unanswered (s.clients k) stream).count id +
        ((s.back stream).map HtlcResolution.correlationid).count id) :
    Accounted { s.setClient k client with forth, back } := by
  constructor
  case ordered => exact accounted.ordered
  case registered => exact accounted.registered
  case unused => exact accounted.unused
  case unopened =>
    intro stream (beyond : s.owners.length ≤ stream)
    obtain ⟨wired, sent⟩ := elsewhere stream (by rw [List.getElem?_eq_none beyond]; exact nofun)
    obtain ⟨fresh, before, sentBefore, replied⟩ := accounted.unopened stream beyond
    exact ⟨fresh, wired.trans before, sent.trans sentBefore, replied⟩
  case origins =>
    exact (Function.forall_update_iff s.clients fun _ (client : Client) =>
      client.origins.length = client.interceptor.handlings.length).mpr
        ⟨origins, fun other _ => accounted.origins other⟩
  case reading =>
    exact (Function.forall_update_iff s.clients fun k client => ∀ stream, client.stream = some stream →
      s.owners[stream]? = some k).mpr
        ⟨fun stream open_ => accounted.reading k stream (reading ▸ open_),
          fun other _ => accounted.reading other⟩
  case owned =>
    exact (Function.forall_update_iff s.clients fun k client => ∀ stream ∈ client.origins,
      s.owners[stream]? = some k).mpr ⟨owned, fun other _ => accounted.owned other⟩
  case total =>
    intro stream owner (own : s.owners[stream]? = some owner) id
    have before := accounted.total stream owner own id
    by_cases same : owner = k
    · subst same
      simp only [setClient, Function.update_self]
      have kept := total stream id
      omega
    · obtain ⟨wired, sent⟩ := elsewhere stream (by rw [own]; simpa using same)
      simp only [setClient, Function.update_of_ne same, wired, sent]
      exact before

theorem Accounted.connect (accounted : Accounted s) (k : Nat)
    (interceptor : Interceptor.Stream HtlcAccepted HtlcResolution)
    (same : interceptor.handlings = (s.clients k).interceptor.handlings) :
    Accounted { s.setClient k { s.clients k with
        interceptor, stream := some s.owners.length } with owners := s.owners ++ [k] } := by
  have older {stream j : Nat} (own : s.owners[stream]? = some j) :
      (s.owners ++ [k])[stream]? = some j := by
    obtain ⟨bound, _⟩ := List.getElem?_eq_some_iff.mp own
    rw [List.getElem?_append_left bound, own]
  constructor
  case ordered => exact accounted.ordered
  case registered => exact accounted.registered
  case unused => exact accounted.unused
  case unopened =>
    intro stream beyond
    rw [List.length_append] at beyond
    exact accounted.unopened stream (by simp at beyond; omega)
  case origins =>
    exact (Function.forall_update_iff s.clients fun _ (client : Client) =>
      client.origins.length = client.interceptor.handlings.length).mpr
        ⟨same ▸ accounted.origins k, fun other _ => accounted.origins other⟩
  case reading =>
    refine (Function.forall_update_iff s.clients fun j client => ∀ stream,
      client.stream = some stream → (s.owners ++ [k])[stream]? = some j).mpr
        ⟨?_, fun other _ stream open_ => older (accounted.reading other stream open_)⟩
    rintro stream open_
    obtain rfl := Option.some.inj open_
    exact List.getElem?_concat_length
  case owned =>
    exact (Function.forall_update_iff s.clients fun j client => ∀ stream ∈ client.origins,
      (s.owners ++ [k])[stream]? = some j).mpr
        ⟨fun stream member => older (accounted.owned k stream member),
          fun other _ stream member => older (accounted.owned other stream member)⟩
  case total =>
    intro stream owner own id
    have kept : unanswered ((s.setClient k { s.clients k with
        interceptor, stream := some s.owners.length }).clients owner) stream =
          unanswered (s.clients owner) stream := by
      by_cases here : owner = k
      · subst here
        simp only [setClient, Function.update_self, unanswered, same]
      · simp only [setClient, Function.update_of_ne here]
    refine Eq.trans ?_ (congrArg (fun ids => _ + List.count id ids + _ + _) kept.symm)
    rw [List.getElem?_append] at own
    split_ifs at own with old
    · exact accounted.total stream owner own id
    · obtain ⟨fresh, forth, back, replied⟩ := accounted.unopened stream (Nat.not_lt.mp old)
      have none : unanswered (s.clients owner) stream = [] := by
        refine pending_eq_nil fun member => old ?_
        exact (List.getElem?_eq_some_iff.mp (accounted.owned owner stream member)).1
      simp [setClient, accounted.unused stream fresh, forth, back, replied, none]

/-- A handler keeps the id of its request until the answer is on the wire. -/
theorem waits_moves {before after : Handling HtlcAccepted HtlcResolution}
    (moves : Handling.Moves cln.backend answers before after) {loop next : Loop}
    {n : Nat} (prepared : Interceptor.Stream.Sound cln.backend loop n before)
    (answered : Interceptor.Stream.Sound cln.backend next n after)
    (silent : ∀ response, before ≠ .sending (some response)) : waits after = waits before := by
  cases moves with
  | start request => rfl
  | @atOnce request response known =>
    have same := replies_correlationid (.atOnce known : Replies cln.backend answers request response)
    exact congrArg (fun id => [id]) same
  | ask asked => rfl
  | @answer request req result given =>
    obtain ⟨response, responded⟩ := Option.isSome_iff_exists.mp answered
    have same := replies_correlationid
      (.decided req result prepared given responded : Replies cln.backend answers request response)
    rw [responded]
    exact congrArg (fun id => [id]) same
  | send response =>
    cases response with
    | none => rfl
    | some response => exact absurd rfl (silent response)
  | done sent => rfl

theorem Accounted.step (accounted : Accounted s) (step : Step cln answers s action later)
    (counted : ∀ k, Interceptor.Stream.Counted cln.backend (s.clients k).interceptor)
    (next : ∀ k, Interceptor.Stream.Counted cln.backend (later.clients k).interceptor) :
    Accounted later := by
  cases step with
  | plugin back step opened read => exact accounted.exchange step opened read
  | connect k here alive => exact accounted.connect k _ rfl
  | @receive stream request rest k here reading wire =>
    have own := accounted.reading k stream reading
    refine accounted.client _ (Function.update s.forth stream rest) s.back ?_ rfl ?_ ?_ ?_
    · simp [accounted.origins k]
    · intro other member
      rcases List.mem_append.mp member with old | new
      · exact accounted.owned k other old
      · exact List.mem_singleton.mp new ▸ own
    · intro other foreign
      refine ⟨Function.update_of_ne ?_ _ _, rfl⟩
      rintro rfl
      exact foreign own
    · intro other id
      simp only [unanswered, pending_append other (accounted.origins k), List.count_append]
      by_cases same : other = stream
      · subst same
        simp only [Function.update_self, wire, List.map_cons, List.count_cons, if_pos, waits,
          List.count_nil]
        omega
      · simp [Function.update_of_ne same, Ne.symm same]
  | @send response stream k n here origin =>
    have own := accounted.owned k stream (List.mem_of_getElem? origin)
    refine accounted.client _ s.forth _ ?_ rfl (accounted.owned k) ?_ ?_
    · simp [Interceptor.Stream.set, accounted.origins k]
    · intro other foreign
      refine ⟨rfl, Function.update_of_ne ?_ _ _⟩
      rintro rfl
      exact foreign own
    · intro other id
      have moved := pending_set other here origin (.finishing (some response)) id
      simp only [unanswered, Interceptor.Stream.set]
      by_cases same : other = stream
      · subst same
        simp only [if_pos, waits, Option.map_some, Option.toList_some, List.count_nil] at moved
        simp only [Function.update_self, List.map_append, List.count_append, List.map_cons,
          List.map_nil]
        omega
      · simp only [Ne.symm same, if_false, List.count_nil] at moved
        simp only [Function.update_of_ne same]
        omega
  | @move _ after k step quiet =>
    refine accounted.client _ s.forth s.back ?_ rfl (accounted.owned k) (fun _ _ => ⟨rfl, rfl⟩) ?_
    · rw [accounted.origins k, quiet.receives]
    · intro stream id
      suffices kept : (pending stream after.handlings (s.clients k).origins).count id =
          (unanswered (s.clients k) stream).count id by
        simp only [unanswered] at kept ⊢
        omega
      rcases step.handlings_cases with ⟨_, same⟩ | ⟨_, request, grown⟩ |
        ⟨_, n, before, later, here, moves, set⟩
      · rw [same]
        rfl
      · have length := quiet.receives
        simp [grown] at length
      · obtain ⟨bound, _⟩ := List.getElem?_eq_some_iff.mp here
        have origin := List.getElem?_eq_getElem (accounted.origins k ▸ bound)
        have moved := pending_set stream here origin later id
        have placed : after.handlings[n]? = some later := by
          rw [set, List.getElem?_set_self bound]
        have following := next k
        simp only [setClient, Function.update_self] at following
        have same : waits later = waits before := by
          refine waits_moves moves ((counted k).sound n before here) (following.sound n later placed) ?_
          rintro response rfl
          have still := (quiet.sends n response here).symm.trans placed
          cases Option.some.inj still
          cases moves
        rw [set]
        simp only [same, unanswered] at moved ⊢
        omega

variable {sha256 : Bytes → Bytes} {i : Interceptor} {world : World}

theorem counted_of_reachable (reachable : (relay cln (Answers sha256 i world)).Reachable s) (k : Nat) :
    Interceptor.Stream.Counted cln.backend (s.clients k).interceptor :=
  Interceptor.Stream.counted_of_reachable (cln_deciding cln) (fun _ _ => decisive_of_answers)
    (client_reachable reachable k)

theorem accounted_of_reachable (reachable : (relay cln (Answers sha256 i world)).Reachable s) :
    Accounted s := by
  refine reachable.induct Accounted ?_ ?_
  · rintro _ ⟨subscriberTimeout, now, rfl⟩
    constructor
    case ordered => exact Ordered.start subscriberTimeout now
    case registered => exact Registered.start subscriberTimeout now
    all_goals simp [initial, State.start, Interceptor.Stream.initial]
  · intro s action later before accounted step
    exact accounted.step step (counted_of_reachable before) (counted_of_reachable (before.step step))

/-- Every htlc that the plugin sent on a stream, it sent once, and it is then at exactly
one place: on the wire to the process that opened the stream, in one of its handlers, on
the wire back, or read by the plugin. All that is in flight was sent on the stream that is
registered. -/
theorem sent_accounted (reachable : (relay cln (Answers sha256 i world)).Reachable s)
    {stream : StreamId} {k : Nat} (owner : s.owners[stream]? = some k) :
    (s.plugin.sent stream).Nodup ∧
      (s.plugin.sent stream).Perm ((s.forth stream).map HtlcAccepted.correlationid ++
        unanswered (s.clients k) stream ++ (s.back stream).map HtlcResolution.correlationid ++
        s.replied stream) ∧
      (s.plugin.htlcStream = some stream → s.plugin.inflightIds ⊆ s.plugin.sent stream) := by
  have accounted := accounted_of_reachable reachable
  refine ⟨?_, ?_, accounted.registered.sent stream⟩
  · exact accounted.ordered.accepted_nodup.sublist (accounted.ordered.sent_accepted stream)
  · rw [List.perm_iff_count]
    intro id
    have total := accounted.total stream k owner id
    simp only [List.count_append]
    exact total

/-- The sample part is on the wire to the process that has subscribed. -/
theorem sent_accounted_sample :
    ∃ s, (relay sampleRewriting sampleAnswers).Reachable s ∧ s.owners[0]? = some 0 ∧
      s.plugin.sent 0 = ["1"] ∧ (s.plugin.sent 0).Nodup ∧
      (s.plugin.sent 0).Perm ((s.forth 0).map HtlcAccepted.correlationid ++
        unanswered (s.clients 0) 0 ++ (s.back 0).map HtlcResolution.correlationid ++ s.replied 0) ∧
      (s.plugin.htlcStream = some 0 → s.plugin.inflightIds ⊆ s.plugin.sent 0) := by
  obtain ⟨s, _, reachable, _, owners, sent, _, _⟩ := sample_relayed
  have owner : s.owners[0]? = some 0 := by rw [owners]; rfl
  exact ⟨s, reachable, owner, sent, sent_accounted reachable owner⟩

end Lspd.Cln.Relay
