import Lspd.Interceptor.Shared
import Lspd.Interceptor.Stopping

/-! What the handlers of both interceptors answer: a request is answered with what
its own fields and the result for them determine, whatever the other handlers, the
loop and `Stop` do meanwhile. -/

namespace Lspd.Interceptor

open Lspd.Common Lspd.Lightning Lspd.Postgres Lspd.Process

variable {Request Response : Type} {backend : Backend Request Response}
  {answers : InterceptRequest → InterceptResult → Prop}

/-- The responses a request can get. -/
inductive Replies (backend : Backend Request Response)
    (answers : InterceptRequest → InterceptResult → Prop) (request : Request)
    (response : Response) : Prop where
  | atOnce (known : backend.prepare request = .error response)
  | decided (req : InterceptRequest) (result : InterceptResult)
      (asked : backend.prepare request = .ok req) (answered : answers req result)
      (responded : backend.respond request result = some response)

namespace Handling

/-- What the goroutine of a handler does next. -/
inductive Moves (backend : Backend Request Response)
    (answers : InterceptRequest → InterceptResult → Prop) :
    Handling Request Response → Handling Request Response → Prop where
  | start (request : Request) : Moves backend answers (.held request) (.started request)
  | atOnce {request : Request} {response : Response}
      (known : backend.prepare request = .error response) :
      Moves backend answers (.started request) (.sending (some response))
  | ask {request : Request} {req : InterceptRequest} (asked : backend.prepare request = .ok req) :
      Moves backend answers (.started request) (.intercepting request req)
  | answer (request : Request) {req : InterceptRequest} {result : InterceptResult}
      (answered : answers req result) :
      Moves backend answers (.intercepting request req) (.sending (backend.respond request result))
  | send (response : Option Response) :
      Moves backend answers (.sending response) (.finishing response)
  | done (sent : Option Response) : Moves backend answers (.finishing sent) (.ended sent)

/-- How the handling of a request can stand. -/
def Of (backend : Backend Request Response) (answers : InterceptRequest → InterceptResult → Prop)
    (request : Request) : Handling Request Response → Prop
  | .held one | .started one => one = request
  | .intercepting one req => one = request ∧ backend.prepare request = .ok req
  | .sending response | .finishing response | .ended response =>
    ∀ reply ∈ response, Replies backend answers request reply

theorem Of.moves {request : Request} {before after : Handling Request Response}
    (ours : Of backend answers request before) (moves : Moves backend answers before after) :
    Of backend answers request after := by
  cases moves with
  | start held => exact ours
  | atOnce known =>
    obtain rfl : _ = request := ours
    intro reply sent
    obtain rfl := Option.mem_some_iff.mp sent
    exact .atOnce known
  | ask asked =>
    obtain rfl : _ = request := ours
    exact ⟨rfl, asked⟩
  | answer held answered =>
    obtain ⟨rfl, asked⟩ := ours
    intro reply sent
    exact .decided _ _ asked answered sent
  | send response => exact ours
  | done sent => exact ours

end Handling

namespace Stream

variable {s later : Stream Request Response} {action : Action}

/-- All that a step can do to the handlings. -/
theorem Step.handlings_cases (step : Step backend answers s action later) :
    (action ≠ .received ∧ later.handlings = s.handlings) ∨
      (action = .received ∧ ∃ request, later.handlings = s.handlings ++ [.held request]) ∨
      (action = .internal ∧ ∃ n before after, s.handlings[n]? = some before ∧
        Handling.Moves backend answers before after ∧
        later.handlings = s.handlings.set n after) := by
  cases step with
  | receive request here => exact .inr (.inl ⟨rfl, request, rfl⟩)
  | start n here held => exact .inr (.inr ⟨rfl, n, _, _, held, .start _, rfl⟩)
  | atOnce n here known => exact .inr (.inr ⟨rfl, n, _, _, here, .atOnce known, rfl⟩)
  | ask n here asked => exact .inr (.inr ⟨rfl, n, _, _, here, .ask asked, rfl⟩)
  | answer n here answered => exact .inr (.inr ⟨rfl, n, _, _, here, .answer _ answered, rfl⟩)
  | send n here => exact .inr (.inr ⟨rfl, n, _, _, here, .send _, rfl⟩)
  | done n here => exact .inr (.inr ⟨rfl, n, _, _, here, .done _, rfl⟩)
  | _ => exact .inl ⟨by simp, rfl⟩

end Stream

section Registered

variable {sha256 : Bytes → Bytes} {i : Interceptor} {world : World}

abbrev Landed := Landing InterceptRequest Op Reply InterceptResult

/-- The finished execution of `Intercept` that a forwarding result comes from, with the row
it has read. It ran for the same payment hash, returned this result, and made it from the
row, from the channel it has found, and from the share of the row's amounts that its leader
has paid. -/
structure Registered (sha256 : Bytes → Bytes) (i : Interceptor) (world : World)
    (paymentHash : Bytes) (result : InterceptResult) (landing : Landed) (row : PaymentRow) :
    Prop where
  ran : ∃ group, (sharedService sha256 i).Reachable ⟨world, []⟩ group ∧
    landing ∈ group.landings ∧
    ∃ now ∈ group.world.world.payments.rows, now.registration = row.registration
  leader : landing.leader.paymentHash = paymentHash
  returned : landing.result = result
  found : row.Matches sha256 paymentHash
  read : ∃ info, info? landing.history = some info ∧ row.info = .value info
  provenance : Provenance landing.execution result row
  amount : ∃ amt, forwardAmount row.outgoingAmountMsat landing.leader.outgoingAmountMsat
    row.incomingAmountMsat = some amt ∧ result.amountMsat = amt.toUInt64
  fee : result.feeMsat = none

theorem combine_onion {result : InterceptResult}
    (onion : (combine [result]).action = .resumeWithOnion) :
    combine [result] = result := by
  unfold combine at onion ⊢
  rw [List.find?_singleton] at onion ⊢
  split_ifs at onion ⊢ with other
  · rfl
  · cases onion

/-- Callers share an execution only when their payment hashes are equal. -/
theorem same_hash {initial : Shared} {group : SharedCalls}
    (reachable : (sharedService sha256 i).Reachable initial group) {landing : Landed}
    (member : landing ∈ group.landings) {req : InterceptRequest} (caller : req ∈ landing.callers) :
    landing.leader.paymentHash = req.paymentHash :=
  encodeToString_inj ((Service.Reachable.callers_key reachable).2 landing member req caller)

/-- No htlc is given a new onion for a payment hash that was not registered. -/
theorem Answers.registered {req : InterceptRequest} {result : InterceptResult}
    (answers : Answers sha256 i world req result) (onion : result.action = .resumeWithOnion) :
    ∃ landing row, Registered sha256 i world req.paymentHash result landing row := by
  obtain ⟨group, landing, reachable, member, caller, rfl⟩ := answers
  have own := combine_onion onion
  rw [own] at onion ⊢
  have sound := Service.Reachable.sound (intercept_follows i) reachable
  obtain ⟨info, channelPoint, amt, scid, htlc, stored, resumed⟩ :=
    (sound.landings landing member).2.resumed onion
  have finished := List.mem_map_of_mem (f := Landing.execution) member
  obtain ⟨row, enrolled⟩ := (standing_of_reachable reachable).rows landing.execution
    (group.finished_subset finished) info resumed.vetted.read resumed.vetted.registered
  have leader := same_hash reachable member caller
  obtain ⟨_, _, _, incoming, outgoing, _, _⟩ := PaymentRow.info_fields enrolled.info_eq
  refine ⟨landing, row, ⟨group, reachable, member, enrolled.kept⟩, leader, rfl,
    leader ▸ enrolled.found, ⟨info, resumed.vetted.read, enrolled.info_eq⟩,
    Resumed.provenance resumed enrolled.info_eq, ⟨amt, ?_, ?_⟩, ?_⟩
  · rw [← incoming, ← outgoing]
    exact resumed.amount
  · rw [resumed.result_eq, onionResult]
  · rw [resumed.result_eq, onionResult]

end Registered

section Lnd

variable {sha256 : Bytes → Bytes} {i : Interceptor} {world : World}
  {lnd : Lnd.LndHtlcInterceptor} {request : Lnd.ForwardHtlcInterceptRequest}
  {response : Lnd.ForwardHtlcInterceptResponse}

theorem sample_answers : sampleAnswers (samplePart 50000000 51000000) (sampleResult 49000000) := by
  have alone := sample_serve sampleScene .refl (samplePart 50000000 51000000) [] (by simp)
    (sampleResult 49000000) sampleRun_finishes
  exact ⟨_, _, alone.inWorld covers_service, List.mem_singleton_self _,
    List.mem_singleton_self _, rfl⟩

end Lnd

end Lspd.Interceptor
