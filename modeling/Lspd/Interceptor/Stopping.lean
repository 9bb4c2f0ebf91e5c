import Lspd.Cln.Interceptor
import Lspd.Interceptor.System
import Lspd.Interceptor.Writes
import Lspd.Lnd.Interceptor
import Lspd.Process.Machine

/-! The htlc interceptors of both backends: a loop that receives requests, a handler
goroutine for each of them, and `Stop`, which waits for the handlers before it
cancels the stream. -/

namespace Lspd.Interceptor

open Lspd.Common Lspd.Lightning Lspd.Postgres Lspd.Process

/-- Where the loop in `intercept` is. It has a request in `holding`, between `Recv`
and `doneWg.Add(1)`. -/
inductive Loop where
  | connecting
  | checking
  | consulting
  | receiving
  | holding (n : Nat)
  | pausing
  | leaving
  | returned
  deriving DecidableEq

/-- A received request and how far its handler is. A response of `none` is not sent. -/
inductive Handling (Request Response : Type) where
  | held (request : Request)
  | started (request : Request)
  | intercepting (request : Request) (asked : InterceptRequest)
  | sending (response : Option Response)
  | finishing (sent : Option Response)
  | ended (sent : Option Response)

namespace Handling

variable {Request Response : Type}

/-- Whether it counts towards `doneWg`. -/
def running : Handling Request Response → Bool
  | .held _ | .ended _ => false
  | .started _ | .intercepting _ _ | .sending _ | .finishing _ => true

def Answered (handling : Handling Request Response) : Prop :=
  ∃ response, handling = .finishing (some response) ∨ handling = .ended (some response)

end Handling

inductive Stopping where
  | idle
  | waiting
  | waited
  | returned
  deriving DecidableEq

/-- `handlings` has the requests in the order they were received; any number of
`Stop` calls can be made. -/
structure Stream (Request Response : Type) where
  stopRequested : Bool
  cancelled : Bool
  loop : Loop
  doneWg : Nat
  handlings : List (Handling Request Response)
  stops : Nat → Stopping

namespace Stream

inductive Action where
  | internal
  | received
  | waited
  | cancelled

variable {Request Response : Type}

def set (s : Stream Request Response) (n : Nat) (handling : Handling Request Response) :
    Stream Request Response :=
  { s with handlings := s.handlings.set n handling }

def setStop (s : Stream Request Response) (k : Nat) (stop : Stopping) : Stream Request Response :=
  { s with stops := Function.update s.stops k stop }

/-- The steps of the loop, of the handlers and of `Stop`. `Recv` returns a request or
an error whenever the stream likes. `Send` returns whenever the stream likes too, and
nobody looks at its error: a handler may stay in it for as long as the node does not read. -/
inductive Step (backend : Backend Request Response)
    (answers : InterceptRequest → InterceptResult → Prop) (s : Stream Request Response) :
    Action → Stream Request Response → Prop where
  | connect (here : s.loop = .connecting) (alive : s.cancelled = false) :
      Step backend answers s .internal { s with loop := .checking }
  | refuse (here : s.loop = .connecting) (alive : s.cancelled = false) :
      Step backend answers s .internal { s with loop := .pausing }
  | interrupt (here : s.loop = .connecting ∨ s.loop = .checking) (dead : s.cancelled = true) :
      Step backend answers s .internal { s with loop := .leaving }
  | check (here : s.loop = .checking) (alive : s.cancelled = false) :
      Step backend answers s .internal { s with loop := .consulting }
  | proceed (here : s.loop = .consulting) (wanted : s.stopRequested = false) :
      Step backend answers s .internal { s with loop := .receiving }
  | quit (here : s.loop = .consulting) (unwanted : s.stopRequested = true) :
      Step backend answers s .internal { s with loop := .leaving }
  | receive (request : Request) (here : s.loop = .receiving) :
      Step backend answers s .received
        { s with loop := .holding s.handlings.length, handlings := s.handlings ++ [.held request] }
  | fail (here : s.loop = .receiving) : Step backend answers s .internal { s with loop := .pausing }
  | retry (here : s.loop = .pausing) :
      Step backend answers s .internal { s with loop := .connecting }
  | start (n : Nat) (here : s.loop = .holding n) (held : s.handlings[n]? = some (.held request)) :
      Step backend answers s .internal
        { s.set n (.started request) with loop := .checking, doneWg := s.doneWg + 1 }
  | leave (here : s.loop = .leaving) (zero : s.doneWg = 0) :
      Step backend answers s .internal { s with loop := .returned }
  | atOnce (n : Nat) (here : s.handlings[n]? = some (.started request))
      (known : backend.prepare request = .error response) :
      Step backend answers s .internal (s.set n (.sending (some response)))
  | ask (n : Nat) (here : s.handlings[n]? = some (.started request))
      (asked : backend.prepare request = .ok req) :
      Step backend answers s .internal (s.set n (.intercepting request req))
  | answer (n : Nat) (here : s.handlings[n]? = some (.intercepting request req))
      (answered : answers req result) :
      Step backend answers s .internal (s.set n (.sending (backend.respond request result)))
  | send (n : Nat) (here : s.handlings[n]? = some (.sending response)) :
      Step backend answers s .internal (s.set n (.finishing response))
  | done (n : Nat) (here : s.handlings[n]? = some (.finishing sent)) :
      Step backend answers s .internal { s.set n (.ended sent) with doneWg := s.doneWg - 1 }
  | stop (k : Nat) (here : s.stops k = .idle) :
      Step backend answers s .internal { s.setStop k .waiting with stopRequested := true }
  | wait (k : Nat) (here : s.stops k = .waiting) (zero : s.doneWg = 0) :
      Step backend answers s .waited (s.setStop k .waited)
  | cancel (k : Nat) (here : s.stops k = .waited) :
      Step backend answers s .cancelled { s.setStop k .returned with cancelled := true }

def initial : Stream Request Response := ⟨false, false, .connecting, 0, [], fun _ => .idle⟩

/-- The interceptor from its `Start` on. -/
def stream (backend : Backend Request Response)
    (answers : InterceptRequest → InterceptResult → Prop) :
    Machine (Stream Request Response) Action where
  Initial s := s = initial
  Step := Step backend answers

/-- When the wait of a `Stop` is over, the loop has no request in its hands, and none is
received from then until that `Stop` cancels. -/
def Graceful (s : Stream Request Response) : Action → Prop
  | .received => ∀ k, s.stops k ≠ .waited
  | .waited => ∀ n, s.loop ≠ .holding n
  | _ => True

/-- The backend answers every request that the handler decides on. -/
def Deciding (backend : Backend Request Response) : Prop :=
  ∀ request req result, backend.prepare request = .ok req → Decisive result →
    (backend.respond request result).isSome

/-- What a handling tells of the loop and of the backend. -/
def Sound (backend : Backend Request Response) (loop : Loop) (n : Nat) :
    Handling Request Response → Prop
  | .held _ => loop = .holding n
  | .started _ => True
  | .intercepting request req => backend.prepare request = .ok req
  | .sending sent | .finishing sent | .ended sent => sent.isSome

/-- In every run `doneWg` counts the handlers that are running, only the loop has
requests without one, and no response is missing. -/
structure Counted (backend : Backend Request Response) (s : Stream Request Response) : Prop where
  count : s.doneWg = s.handlings.countP Handling.running
  sound : ∀ n handling, s.handlings[n]? = some handling → Sound backend s.loop n handling

variable {backend : Backend Request Response} {answers : InterceptRequest → InterceptResult → Prop}
  {s later : Stream Request Response} {action : Action}

theorem Sound.move {loop next : Loop} {n : Nat} {handling : Handling Request Response}
    (sound : Sound backend loop n handling) (kept : loop = .holding n → next = .holding n) :
    Sound backend next n handling := by
  cases handling with
  | held request => exact kept sound
  | _ => exact sound

/-- Steps that leave the handlings alone. -/
theorem Counted.same (counted : Counted backend s) (handlings : later.handlings = s.handlings)
    (doneWg : later.doneWg = s.doneWg) (loop : ∀ n, s.loop = .holding n → later.loop = .holding n) :
    Counted backend later := by
  constructor
  · rw [doneWg, handlings, counted.count]
  · intro n handling found
    rw [handlings] at found
    exact (counted.sound n handling found).move (loop n)

theorem Counted.positive (counted : Counted backend s) {handling : Handling Request Response}
    (member : handling ∈ s.handlings) (running : handling.running = true) : 0 < s.doneWg := by
  rw [counted.count]
  exact List.countP_pos_iff.mpr ⟨handling, member, running⟩

/-- Steps that move one handling on. -/
theorem Counted.advance (counted : Counted backend s) {n : Nat}
    {before after : Handling Request Response} (here : s.handlings[n]? = some before)
    (handlings : later.handlings = s.handlings.set n after)
    (doneWg : (later.doneWg + if before.running then 1 else 0) =
      s.doneWg + if after.running then 1 else 0)
    (loop : ∀ m, m ≠ n → s.loop = .holding m → later.loop = .holding m)
    (sound : Sound backend later.loop n after) : Counted backend later := by
  obtain ⟨bound, value⟩ := List.getElem?_eq_some_iff.mp here
  constructor
  · have count := counted.count
    rw [handlings, List.countP_set bound, value]
    split_ifs at doneWg ⊢ with running
    · have positive := counted.positive (List.mem_of_getElem? here) running
      omega
    · have positive := counted.positive (List.mem_of_getElem? here) running
      omega
    · omega
    · omega
  · intro m handling found
    rw [handlings, List.getElem?_set] at found
    split_ifs at found with same
    · obtain rfl := Option.some.inj found
      exact same ▸ sound
    · exact (counted.sound m handling found).move (loop m fun equal => same equal.symm)

/-- No request is in the hands of the loop or of a handler. -/
structure Drained (s : Stream Request Response) : Prop where
  loop : ∀ n, s.loop ≠ .holding n
  handlings : ∀ handling ∈ s.handlings, handling.running = false

theorem Drained.idle (drained : Drained s) {n : Nat} {handling : Handling Request Response}
    (here : s.handlings[n]? = some handling) (running : handling.running = true) : False := by
  rw [drained.handlings handling (List.mem_of_getElem? here)] at running
  cases running

/-- Only a new request ends the calm. -/
theorem Drained.step (drained : Drained s) (step : Step backend answers s action later) :
    action = .received ∨ Drained later := by
  cases step with
  | receive request here => exact .inl rfl
  | start n here held => exact absurd here (drained.loop n)
  | atOnce n here _ | ask n here _ | answer n here _ | send n here | done n here =>
    exact (drained.idle here rfl).elim
  | stop k _ | wait k _ _ | cancel k _ => exact .inr ⟨drained.loop, drained.handlings⟩
  | _ => exact .inr ⟨fun n => by simp, drained.handlings⟩

section Deciding

variable (deciding : Deciding backend) (decisive : ∀ req result, answers req result → Decisive result)
include deciding decisive

theorem Counted.step (counted : Counted backend s)
    (step : Step backend answers s action later) : Counted backend later := by
  cases step with
  | connect here | refuse here | check here | proceed here | quit here | fail here | retry here
  | leave here =>
    exact counted.same rfl rfl fun n held => by rw [here] at held; cases held
  | interrupt here =>
    refine counted.same rfl rfl fun n held => ?_
    rcases here with here | here <;> rw [here] at held <;> cases held
  | receive request here =>
    constructor
    · rw [List.countP_append, counted.count]
      rfl
    · intro n handling found
      rw [List.getElem?_append] at found
      split_ifs at found with old
      · refine (counted.sound n handling found).move fun held => ?_
        rw [here] at held
        cases held
      · obtain ⟨rfl, last⟩ : .held request = handling ∧ n = s.handlings.length := by
          rw [List.getElem?_singleton] at found
          split_ifs at found with zero
          exact ⟨Option.some.inj found, by omega⟩
        rw [last]
        rfl
  | start n here held =>
    refine counted.advance held rfl rfl (fun m other holding => ?_) trivial
    rw [here] at holding
    exact absurd (Loop.holding.inj holding).symm other
  | atOnce n here known => exact counted.advance here rfl rfl (fun _ _ holding => holding) rfl
  | ask n here asked => exact counted.advance here rfl rfl (fun _ _ holding => holding) asked
  | answer n here answered =>
    have asked : Sound backend s.loop n _ := counted.sound n _ here
    exact counted.advance here rfl rfl (fun _ _ holding => holding)
      (deciding _ _ _ asked (decisive _ _ answered))
  | send n here =>
    have sent : Sound backend s.loop n _ := counted.sound n _ here
    exact counted.advance here rfl rfl (fun _ _ holding => holding) sent
  | done n here =>
    have sent : Sound backend s.loop n _ := counted.sound n _ here
    have positive := counted.positive (List.mem_of_getElem? here) rfl
    refine counted.advance here rfl ?_ (fun _ _ holding => holding) sent
    show s.doneWg - 1 + 1 = s.doneWg
    omega
  | stop k here => exact counted.same rfl rfl fun _ holding => holding
  | wait k here zero => exact counted.same rfl rfl fun _ holding => holding
  | cancel k here => exact counted.same rfl rfl fun _ holding => holding

theorem counted_of_reachable (reachable : (stream backend answers).Reachable s) :
    Counted backend s := by
  refine Machine.Reachable.induct (Counted backend) ?_ ?_ reachable
  · rintro _ rfl
    exact ⟨rfl, fun n handling found => by simp [initial] at found⟩
  · intro s action later _ counted step
    exact counted.step deciding decisive step

/-- What the condition keeps: nothing is left when a `Stop` is about to cancel. -/
theorem drained_of_waited (reachable : (stream backend answers).ReachableWhen Graceful s) {k : Nat}
    (waited : s.stops k = .waited) : Drained s := by
  revert k
  refine Machine.ReachableWhen.induct (fun s => ∀ {k}, s.stops k = .waited → Drained s) ?_ ?_ reachable
  · rintro _ rfl k waited
    cases waited
  · intro s action later before drained graceful step k waited
    by_cases already : s.stops k = .waited
    · refine ((drained already).step step).resolve_left ?_
      rintro rfl
      exact graceful k already
    · have counted := counted_of_reachable deciding decisive before
      cases step with
      | wait other here zero =>
        refine ⟨graceful, fun handling member => ?_⟩
        rw [counted.count] at zero
        exact Bool.eq_false_iff.mpr (List.countP_eq_zero.mp zero handling member)
      | stop other here | cancel other here =>
        by_cases same : k = other
        · subst same
          simp [setStop] at waited
        · simp [setStop, Function.update_of_ne same] at waited
          exact absurd waited already
      | _ => exact absurd waited already

theorem answered_of_graceful (reachable : (stream backend answers).ReachableWhen Graceful s)
    (cancel : Step backend answers s .cancelled later) :
    ∀ handling ∈ s.handlings, handling.Answered := by
  intro handling member
  have counted := counted_of_reachable deciding decisive reachable.reachable
  cases cancel with
  | cancel k here =>
    have drained := drained_of_waited deciding decisive reachable here
    obtain ⟨n, found⟩ := List.mem_iff_getElem?.mp member
    have sound := counted.sound n handling found
    have idle := drained.handlings handling member
    cases handling with
    | held request => exact absurd sound (drained.loop n)
    | ended sent =>
      obtain ⟨response, rfl⟩ := Option.isSome_iff_exists.mp sound
      exact ⟨response, .inr rfl⟩
    | _ => cases idle

end Deciding

end Stream

section Handlers

variable {sha256 : Bytes → Bytes} {i : Interceptor} {world : World}

/-- The results a call of the combined handler around `Intercept` can return, whatever the
interceptors of other nodes do to the databases meanwhile. -/
def Answers (sha256 : Bytes → Bytes) (i : Interceptor) (world : World) (req : InterceptRequest)
    (result : InterceptResult) : Prop :=
  ∃ group landing, (sharedService sha256 i).Reachable ⟨world, []⟩ group ∧
    landing ∈ group.landings ∧ req ∈ landing.callers ∧ result = combine [landing.result]

theorem decisive_of_answers {req : InterceptRequest} {result : InterceptResult}
    (answers : Answers sha256 i world req result) : Decisive result := by
  obtain ⟨group, landing, reachable, member, _, rfl⟩ := answers
  have sound := Service.Reachable.sound (intercept_stamps (i := i)) reachable
  have decided : Decisive landing.result := (sound.landings landing member).2
  unfold combine
  rw [List.find?_singleton]
  split_ifs
  · exact decided
  · exact decisive_resume

theorem lnd_deciding (lnd : Lnd.LndHtlcInterceptor) : Stream.Deciding lnd.backend :=
  fun _ _ _ _ _ => rfl

theorem cln_deciding (cln : Cln.ClnHtlcInterceptor) : Stream.Deciding cln.backend := by
  intro request req result prepared decisive
  have onion : ∃ onion, request.onion = some onion := by
    cases here : request.onion with
    | some onion => exact ⟨onion, rfl⟩
    | none =>
      simp only [Cln.ClnHtlcInterceptor.backend, Cln.ClnHtlcInterceptor.interceptRequest, here]
        at prepared
      split at prepared
      · rename_i other
        cases other
      · cases prepared
  obtain ⟨onion, here⟩ := onion
  cases action : result.action with
  | ignore => exact absurd action decisive
  | _ => simp [Cln.ClnHtlcInterceptor.backend, Cln.ClnHtlcInterceptor.respond, action, here]

/-- In both backends, when a `Stop` cancels a stream that was drained as it should be,
every request received has been answered. -/
theorem answered_when_cancelled (sha256 : Bytes → Bytes) (i : Interceptor) (world : World)
    (lnd : Lnd.LndHtlcInterceptor) (cln : Cln.ClnHtlcInterceptor) :
    (∀ s later, (Stream.stream lnd.backend (Answers sha256 i world)).ReachableWhen Stream.Graceful s →
      Stream.Step lnd.backend (Answers sha256 i world) s .cancelled later →
      ∀ handling ∈ s.handlings, handling.Answered) ∧
    ∀ s later, (Stream.stream cln.backend (Answers sha256 i world)).ReachableWhen Stream.Graceful s →
      Stream.Step cln.backend (Answers sha256 i world) s .cancelled later →
      ∀ handling ∈ s.handlings, handling.Answered :=
  ⟨fun _ _ reachable cancel => Stream.answered_of_graceful (lnd_deciding lnd)
      (fun _ _ => decisive_of_answers) reachable cancel,
    fun _ _ reachable cancel => Stream.answered_of_graceful (cln_deciding cln)
      (fun _ _ => decisive_of_answers) reachable cancel⟩

/-- A cln payment to the node itself, which is let through, and an lnd request. -/
def sampleAccepted : Cln.HtlcAccepted :=
  { correlationid := "0"
    onion := some ⟨"", none, some 100000000, some 144, some (encodeToString sampleHash), none⟩
    htlc := ⟨"1x1x1", 0, 100000000, 200, 100, encodeToString sampleHash⟩ }

def sampleForward : Lnd.ForwardHtlcInterceptRequest :=
  ⟨⟨1, 0⟩, 100000000, 200, sampleHash, 2, 98000000, 160, []⟩

def sampleLnd : Lnd.LndHtlcInterceptor where
  circuitKeyString _ := "chan_id:1"
  constructOnion _ _ _ := none

def sampleCln : Cln.ClnHtlcInterceptor where
  encodePayloadWithNextHop _ _ _ _ := none
  chanIdString _ := ""

abbrev sampleAnswers := Answers sampleSha256 sampleInterceptor sampleWorld

theorem receiving_reachable {Request Response : Type} {backend : Backend Request Response}
    {answers : InterceptRequest → InterceptResult → Prop} :
    (Stream.stream backend answers).ReachableWhen Stream.Graceful
      { Stream.initial with loop := .receiving } := by
  have begun : (Stream.stream backend answers).ReachableWhen Stream.Graceful Stream.initial :=
    .start rfl
  have connected := begun.step (by exact trivial) (.connect rfl rfl)
  have checked := connected.step (by exact trivial) (.check rfl rfl)
  exact checked.step (by exact trivial) (.proceed rfl rfl)

/-- A request is answered, and then the interceptor is stopped while it receives. -/
theorem answered_when_cancelled_sample :
    ∃ s later, (Stream.stream sampleCln.backend sampleAnswers).ReachableWhen Stream.Graceful s ∧
      Stream.Step sampleCln.backend sampleAnswers s .cancelled later ∧ s.handlings.length = 1 ∧
      ∀ handling ∈ s.handlings, handling.Answered := by
  have receiving := @receiving_reachable _ _ sampleCln.backend sampleAnswers
  have received := receiving.step (by intro _ waited; cases waited) (.receive sampleAccepted rfl)
  have started := received.step (by exact trivial) (.start 0 rfl rfl)
  have answered := started.step (by exact trivial) (.atOnce 0 rfl rfl)
  have sent := answered.step (by exact trivial) (.send 0 rfl)
  have done := sent.step (by exact trivial) (.done 0 rfl)
  have checked := done.step (by exact trivial) (.check rfl rfl)
  have stopping := checked.step (by exact trivial) (.stop 0 rfl)
  have waited := stopping.step (by intro _ holding; cases holding) (.wait 0 rfl rfl)
  exact ⟨_, _, waited, .cancel 0 rfl, rfl,
    (answered_when_cancelled sampleSha256 sampleInterceptor sampleWorld sampleLnd sampleCln).2
      _ _ waited (.cancel 0 rfl)⟩

/-- A request that arrives between the wait of `Stop` and its cancel is lost. -/
theorem cancelled_unanswered :
    ∃ s later, (Stream.stream sampleLnd.backend sampleAnswers).Reachable s ∧
      Stream.Step sampleLnd.backend sampleAnswers s .cancelled later ∧
      ∃ handling ∈ s.handlings, ¬ handling.Answered := by
  have receiving := (@receiving_reachable _ _ sampleLnd.backend sampleAnswers).reachable
  have stopping := receiving.step (.stop 0 rfl)
  have waited := stopping.step (.wait 0 rfl rfl)
  have received := waited.step (.receive sampleForward rfl)
  refine ⟨_, _, received, .cancel 0 rfl, .held sampleForward, .head _, ?_⟩
  rintro ⟨response, sent | sent⟩ <;> cases sent

end Handlers

end Lspd.Interceptor
