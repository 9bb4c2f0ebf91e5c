import Lspd.Cln.Interceptor
import Lspd.Plugin.Delivery

/-! What the server in the plugin takes in and gives out at each of its steps, and that
it holds nothing that it was not given. -/

namespace Lspd.Plugin

open Lspd.Store

namespace Responses

/-- The htlc whose timeout is waited for. -/
def oldest : Responses → List HtlcAcceptedMsg
  | .waiting _ oldest => oldest.toList
  | _ => []

end Responses

namespace State

/-- All htlcs the server has in its memory. -/
def messages (s : State) : List HtlcAcceptedMsg :=
  s.enqueuing ++ s.htlcSendQueue ++ s.requests.hand ++ s.inflightHtlcs.rows ++ s.responses.oldest

/-- What an action sends on a stream without an error. -/
def puts (s : State) (stream : StreamId) : Action → List HtlcAcceptedMsg
  | .deliver =>
    match s.requests with
    | .sending msg target => if target = stream then [msg] else []
    | _ => []
  | .subscribe target count => if target = stream then s.inflightHtlcs.rows.take count else []
  | _ => []

/-- What an action receives from a stream. -/
def reads (s : State) (stream : StreamId) : Action → List Cln.HtlcResolution
  | .answer id outcome => if s.responses = .receiving stream then [⟨id, outcome⟩] else []
  | _ => []

/-- What an action returns to cln. -/
def returns (s : State) : Action → List HtlcResultMsg
  | .dequeue => s.htlcRecvQueue.head?.toList
  | _ => []

end State

namespace Action

/-- The htlc an action gets from cln. -/
def asks : Action → List (String × HtlcAccepted)
  | .call id htlc => [(id, htlc)]
  | _ => []

/-- The stream that a handler of the grpc server starts with. -/
def opens : Action → List StreamId
  | .subscribe stream _ | .refuse stream => [stream]
  | _ => []

end Action

variable {s later : State} {action : Action}

theorem mem_messages {msg : HtlcAcceptedMsg} : msg ∈ s.messages ↔ msg ∈ s.enqueuing ∨
    msg ∈ s.htlcSendQueue ∨ msg ∈ s.requests.hand ∨ msg ∈ s.inflightHtlcs.rows ∨
      msg ∈ s.responses.oldest := by
  simp [State.messages]

/-- A replay changes nothing but timeouts. -/
theorem mem_replayed {count : Nat} {msg : HtlcAcceptedMsg} (held : msg ∈ (s.replayed count).rows) :
    ∃ old ∈ s.inflightHtlcs.rows, old.id = msg.id ∧ old.htlc = msg.htlc := by
  rcases List.mem_append.mp held with reset | kept
  · obtain ⟨old, member, rfl⟩ := List.mem_map.mp reset
    exact ⟨old, List.mem_of_mem_take member, rfl, rfl⟩
  · exact ⟨msg, List.mem_of_mem_drop kept, rfl, rfl⟩

/-- The server makes no messages up and swaps none: what it holds came from cln. -/
theorem Step.messages (step : Step s action later) {msg : HtlcAcceptedMsg}
    (held : msg ∈ later.messages) :
    (∃ old ∈ s.messages, old.id = msg.id ∧ old.htlc = msg.htlc) ∨
      (msg.id, msg.htlc) ∈ action.asks := by
  have same (old : msg ∈ s.enqueuing ∨ msg ∈ s.htlcSendQueue ∨ msg ∈ s.requests.hand ∨
      msg ∈ s.inflightHtlcs.rows ∨ msg ∈ s.responses.oldest) :
      (∃ old ∈ s.messages, old.id = msg.id ∧ old.htlc = msg.htlc) ∨ (msg.id, msg.htlc) ∈ action.asks :=
    .inl ⟨msg, mem_messages.mpr old, rfl, rfl⟩
  rw [mem_messages] at held
  cases step with
  | call id htlc new =>
    rcases held with entering | rest
    · rcases List.mem_append.mp entering with old | one
      · exact same (.inl old)
      · obtain rfl := List.mem_singleton.mp one
        exact .inr (List.mem_singleton_self _)
    · exact same (.inr rest)
  | subscribe stream new free alive | subscribeError new free partway alive =>
    rcases held with entering | queued | hand | flying | oldest
    · exact same (.inl entering)
    · exact same (.inr (.inl queued))
    · exact same (.inr (.inr (.inl hand)))
    · obtain ⟨old, member, kept⟩ := mem_replayed flying
      exact .inl ⟨old, mem_messages.mpr (.inr (.inr (.inr (.inl member)))), kept⟩
    · exact same (.inr (.inr (.inr (.inr oldest))))
  | enqueue waiting room => exact same (by grind [List.mem_of_mem_erase])
  | take here queue => exact same (by grind [Requests.hand])
  | deliver here alive => exact same (by grind [Requests.hand, Table.mem_of_mem_set])
  | sendError here => exact same (by grind [Requests.hand, Table.mem_of_mem_set, Table.mem_delete])
  | pollNone here free =>
    have oldest (first : msg ∈ s.inflightHtlcs.rows.head?.toList) : msg ∈ s.inflightHtlcs.rows :=
      List.mem_of_mem_head? (Option.mem_toList.mp first)
    exact same (by grind [Responses.oldest])
  | delete id pending => exact same (by grind [Table.mem_delete])
  | sampleNone here _ | sampleStream here _ | wake here _ | expire here _ | release here _ =>
    exact same (by grind [Requests.hand])
  | pollStream here _ | answer _ _ here | receiveError here | push here _ | wakeReceive here _
  | expireOldest here _ => exact same (by grind [Responses.oldest])
  | tick _ | refuse _ _ | disconnect _ | remove _ _ _ | dequeue _ => exact same held

/-- Where the results for cln come from: an htlc that was waited with too long, or an
answer of the subscriber. -/
theorem Step.results (step : Step s action later) {msg : HtlcResultMsg}
    (queued : msg ∈ later.htlcRecvQueue) :
    msg ∈ s.htlcRecvQueue ∨
      (msg.result = defaultResult ∧ ∃ held ∈ s.messages, held.id = msg.id) ∨
      ∃ outcome, s.responses = .resolved msg.id outcome ∧ msg.result = mapHtlcResult outcome := by
  cases step with
  | @release held here room =>
    rcases List.mem_append.mp queued with old | one
    · exact .inl old
    · obtain rfl := List.mem_singleton.mp one
      have hand : held ∈ s.requests.hand := by
        rw [here]
        exact List.mem_singleton_self _
      exact .inr (.inl ⟨rfl, held, mem_messages.mpr (.inr (.inr (.inl hand))), rfl⟩)
  | push here room =>
    rcases List.mem_append.mp queued with old | one
    · exact .inl old
    · obtain rfl := List.mem_singleton.mp one
      exact .inr (.inr ⟨_, here, rfl⟩)
  | dequeue queue => exact .inl (queue ▸ List.mem_cons_of_mem _ queued)
  | _ => exact .inl queued

theorem Step.resolved (step : Step s action later) {id : String} {outcome : HtlcOutcome}
    (resolved : later.responses = .resolved id outcome) :
    s.responses = .resolved id outcome ∨
      (outcome = .continue none none ∧ ∃ held ∈ s.messages, held.id = id) ∨
      action = .answer id outcome := by
  cases step with
  | @expireOldest ns oldest here late =>
    cases resolved
    have waited : oldest ∈ s.responses.oldest := by
      rw [here]
      exact List.mem_singleton_self _
    exact .inr (.inl ⟨rfl, oldest, mem_messages.mpr (.inr (.inr (.inr (.inr waited)))), rfl⟩)
  | answer id outcome here =>
    cases resolved
    exact .inr (.inr rfl)
  | pollNone _ _ | pollStream _ _ | wakeReceive _ _ | receiveError _ | push _ _ => cases resolved
  | _ => exact .inl resolved

theorem Step.reads {id : String} {outcome : HtlcOutcome}
    (step : Step s (.answer id outcome) later) :
    ∃ stream, ⟨id, outcome⟩ ∈ s.reads stream (.answer id outcome) := by
  cases step with
  | @answer stream _ _ here =>
    refine ⟨stream, ?_⟩
    rw [State.reads, if_pos here]
    exact List.mem_singleton_self _

theorem Step.called (step : Step s action later) (once : s.called.Nodup) :
    later.called = s.called ++ action.asks.map Prod.fst ∧ later.called.Nodup := by
  cases step with
  | call id htlc new =>
    refine ⟨rfl, ?_⟩
    rw [List.nodup_append]
    refine ⟨once, List.pairwise_singleton _ _, ?_⟩
    intro old member added one same
    exact new (same.trans (List.mem_singleton.mp one) ▸ member)
  | _ => exact ⟨(List.append_nil _).symm, once⟩

theorem State.mem_of_mem_puts {stream : StreamId} {msg : HtlcAcceptedMsg}
    (put : msg ∈ s.puts stream action) : msg ∈ s.messages := by
  unfold State.puts at put
  split at put
  · split at put
    · rename_i held target here
      split_ifs at put
      · obtain rfl := List.mem_singleton.mp put
        refine mem_messages.mpr (.inr (.inr (.inl ?_)))
        rw [here]
        exact List.mem_singleton_self _
      · cases put
    · cases put
  · split_ifs at put
    · exact mem_messages.mpr (.inr (.inr (.inr (.inl (List.mem_of_mem_take put)))))
    · cases put
  · cases put

theorem State.mem_of_mem_returns {msg : HtlcResultMsg} (returned : msg ∈ s.returns action) :
    msg ∈ s.htlcRecvQueue := by
  unfold State.returns at returned
  split at returned
  · exact List.mem_of_mem_head? (Option.mem_toList.mp returned)
  · cases returned

/-- The ids on each stream are those of the messages that were sent on it. -/
theorem Step.sent (step : Step s action later)
    (unused : ∀ stream, s.subscription stream = .fresh → s.sent stream = []) (stream : StreamId) :
    later.sent stream = s.sent stream ++ (s.puts stream action).map HtlcAcceptedMsg.id := by
  cases step with
  | @deliver msg target here alive =>
    by_cases same : target = stream
    · subst same
      simp [State.puts, here]
    · simp [State.puts, here, same, Function.update_of_ne (Ne.symm same)]
  | subscribe target new free alive =>
    by_cases same : target = stream
    · subst same
      simp [State.puts, unused target new, State.inflightIds]
    · simp [State.puts, same, Function.update_of_ne (Ne.symm same)]
  | @subscribeError target count new free partway alive =>
    by_cases same : target = stream
    · subst same
      simp [State.puts, unused target new, State.inflightIds, List.map_take]
    · simp [State.puts, same, Function.update_of_ne (Ne.symm same)]
  | _ => simp [State.puts]

section Fresh

variable {stream : StreamId}

theorem fresh_of_update {subscription : StreamId → Subscription} {target : StreamId}
    {value : Subscription} (used : value ≠ .fresh)
    (fresh : Function.update subscription target value stream = .fresh) :
    subscription stream = .fresh ∧ stream ∉ [target] := by
  by_cases same : stream = target
  · subst same
    rw [Function.update_self] at fresh
    exact absurd fresh used
  · rw [Function.update_of_ne same] at fresh
    exact ⟨fresh, by simpa using same⟩

theorem Step.still_fresh (step : Step s action later) (fresh : later.subscription stream = .fresh) :
    s.subscription stream = .fresh ∧ stream ∉ action.opens := by
  cases step with
  | subscribe _ _ _ _ | subscribeError _ _ _ _ | refuse _ _ =>
    exact fresh_of_update (by decide) fresh
  | remove _ _ _ => exact ⟨(fresh_of_update (by decide) fresh).1, List.not_mem_nil⟩
  | _ => exact ⟨fresh, List.not_mem_nil⟩

theorem Step.stays_fresh (step : Step s action later) (fresh : s.subscription stream = .fresh)
    (elsewhere : stream ∉ action.opens) : later.subscription stream = .fresh := by
  cases step with
  | subscribe target _ _ _ | subscribeError _ _ _ _ | refuse _ _ =>
    simpa [Function.update_of_ne (List.ne_of_not_mem_cons elsewhere)] using fresh
  | remove target active _ =>
    have other : stream ≠ target := by
      rintro rfl
      rw [fresh] at active
      cases active
    simpa [Function.update_of_ne other] using fresh
  | _ => exact fresh

/-- Nothing is sent on a stream whose handler has not started. -/
theorem Step.puts_fresh (step : Step s action later) (registered : Registered s)
    (fresh : s.subscription stream = .fresh) (elsewhere : stream ∉ action.opens) :
    s.puts stream action = [] := by
  cases step with
  | @deliver msg target here alive =>
    have other : target ≠ stream := by
      rintro rfl
      rcases registered.stale msg target here with active | finished
      · rw [(registered.active target).mpr active] at fresh
        cases fresh
      · rw [finished] at alive
        cases alive
    simp [State.puts, here, other]
  | subscribe target _ _ _ | subscribeError _ _ _ _ =>
    exact if_neg fun same => elsewhere (List.mem_singleton.mpr same.symm)
  | _ => rfl

end Fresh

end Lspd.Plugin
