import Lspd.Interceptor.Draining
import Mathlib.Data.Fintype.Sum
import Mathlib.Tactic.DeriveFintype

/-! `runLspd` once everything is set up: it runs the interceptors and the grpc server,
and when one of them ends, or a signal comes, it stops all others, so that the process
can be started again. -/

namespace Lspd.Cmd

open Lspd.Common Lspd.Process

variable {n : Nat}

/-- The goroutines of `runLspd`: one for each interceptor, one for the grpc server, and
one that waits for a signal. -/
inductive Goroutine (n : Nat) where
  | interceptor (k : Fin n)
  | server
  | signal
  deriving DecidableEq, Fintype

/-- The number under which its calls of `Stop` are known to the interceptors. -/
def Goroutine.number : Goroutine n → Nat
  | .interceptor k => k
  | .server => n
  | .signal => n + 1

/-- What a goroutine is at. In `waiting` its `Start` has not returned, or no signal has
come; `stopInterceptors` is at the interceptor with the given index. -/
inductive Job where
  | waiting
  | stopServer
  | gracefulStop
  | stopInterceptors (next : Nat)
  | finished
  deriving DecidableEq

/-- Where the `Start` of the grpc server is. It sets `s.s` between `listening` and
`serving`. -/
inductive Serving where
  | listening
  | serving
  | returned
  deriving DecidableEq

/-- `started` tells which interceptors have a `cancel`. The count of `wg` is the number of
goroutines, the one for the signal apart, that are `waiting`. -/
structure Daemon (n : Nat) (Request Response : Fin n → Type) where
  started : Fin n → Bool
  streams : (k : Fin n) → Interceptor.Stream (Request k) (Response k)
  serving : Serving
  quit : Bool
  rpcs : Nat
  jobs : Goroutine n → Job
  crashed : Bool
  exited : Bool

namespace Daemon

variable {Request Response : Fin n → Type}

def initial : Daemon n Request Response where
  started _ := false
  streams _ := Interceptor.Stream.initial
  serving := .listening
  quit := false
  rpcs := 0
  jobs _ := .waiting
  crashed := false
  exited := false

/-- The process has ended. -/
def ended (d : Daemon n Request Response) : Bool := d.exited || d.crashed

def setJob (d : Daemon n Request Response) (g : Goroutine n) (job : Job) :
    Daemon n Request Response :=
  { d with jobs := Function.update d.jobs g job }

def setStream (d : Daemon n Request Response) (k : Fin n)
    (stream : Interceptor.Stream (Request k) (Response k)) : Daemon n Request Response :=
  { d with streams := Function.update d.streams k stream }

/-- The steps that lspd takes on its own, and those that need the outside. -/
inductive Action where
  | own
  | outside

/-- `GracefulStop` lets no rpc in and returns when none is left, as `Serve` does then. A
`Stop` that finds no `cancel` panics, and `log.Fatalf` ends the process. -/
inductive Step (backend : (k : Fin n) → Backend (Request k) (Response k))
    (answers : InterceptRequest → InterceptResult → Prop) (d : Daemon n Request Response) :
    Action → Daemon n Request Response → Prop where
  | start (k : Fin n) (up : d.ended = false) (here : d.started k = false)
      (waiting : d.jobs (.interceptor k) = .waiting) :
      Step backend answers d .own
        { d.setStream k { d.streams k with stopRequested := false } with
          started := Function.update d.started k true }
  | dialError (k : Fin n) (up : d.ended = false) (here : d.started k = false)
      (waiting : d.jobs (.interceptor k) = .waiting) :
      Step backend answers d .outside (d.setJob (.interceptor k) .stopServer)
  | intercept (k : Fin n) {action : Interceptor.Stream.Action}
      {later : Interceptor.Stream (Request k) (Response k)} (up : d.ended = false)
      (begun : d.started k = true)
      (step : Interceptor.Stream.Step (backend k) answers (d.streams k) action later)
      (unprompted : (d.streams k).Unprompted later action) :
      Step backend answers d .own (d.setStream k later)
  | prompt (k : Fin n) {action : Interceptor.Stream.Action}
      {later : Interceptor.Stream (Request k) (Response k)} (up : d.ended = false)
      (begun : d.started k = true)
      (step : Interceptor.Stream.Step (backend k) answers (d.streams k) action later)
      (alone : later.stops = (d.streams k).stops) :
      Step backend answers d .outside (d.setStream k later)
  | returned (k : Fin n) (up : d.ended = false) (here : (d.streams k).loop = .returned)
      (waiting : d.jobs (.interceptor k) = .waiting) :
      Step backend answers d .own (d.setJob (.interceptor k) .stopServer)
  | listen (up : d.ended = false) (here : d.serving = .listening) :
      Step backend answers d .own { d with serving := .serving }
  | listenError (up : d.ended = false) (here : d.serving = .listening) :
      Step backend answers d .outside { d with crashed := true }
  | rpc (up : d.ended = false) (here : d.serving = .serving) (accepting : d.quit = false) :
      Step backend answers d .outside { d with rpcs := d.rpcs + 1 }
  | reply (up : d.ended = false) (pending : 0 < d.rpcs) :
      Step backend answers d .own { d with rpcs := d.rpcs - 1 }
  | serve (up : d.ended = false) (here : d.serving = .serving) (told : d.quit = true)
      (drained : d.rpcs = 0) :
      Step backend answers d .own
        { d.setJob .server (.stopInterceptors 0) with serving := .returned }
  | serveError (up : d.ended = false) (here : d.serving = .serving) :
      Step backend answers d .outside
        { d.setJob .server (.stopInterceptors 0) with serving := .returned }
  | signal (up : d.ended = false) (waiting : d.jobs .signal = .waiting) :
      Step backend answers d .outside (d.setJob .signal .stopServer)
  | stopUnset (g : Goroutine n) (up : d.ended = false) (here : d.jobs g = .stopServer)
      (unset : d.serving = .listening) :
      Step backend answers d .own (d.setJob g (.stopInterceptors 0))
  | stopServer (g : Goroutine n) (up : d.ended = false) (here : d.jobs g = .stopServer)
      (set : d.serving ≠ .listening) :
      Step backend answers d .own { d.setJob g .gracefulStop with quit := true }
  | gracefulStop (g : Goroutine n) (up : d.ended = false) (here : d.jobs g = .gracefulStop)
      (drained : d.rpcs = 0) :
      Step backend answers d .own (d.setJob g (.stopInterceptors 0))
  | stop (g : Goroutine n) (k : Fin n) {action : Interceptor.Stream.Action}
      {later : Interceptor.Stream (Request k) (Response k)} {stage : Interceptor.Stopping}
      (up : d.ended = false)
      (here : d.jobs g = .stopInterceptors k)
      (step : Interceptor.Stream.Step (backend k) answers (d.streams k) action later)
      (mine : later.stops = Function.update (d.streams k).stops g.number stage)
      (moved : stage ≠ (d.streams k).stops g.number)
      (cancels : stage = .returned → d.started k = true) :
      Step backend answers d .own
        ((d.setStream k later).setJob g
          (.stopInterceptors (if stage = .returned then k + 1 else k)))
  | panic (g : Goroutine n) (k : Fin n) (up : d.ended = false)
      (here : d.jobs g = .stopInterceptors k)
      (waited : (d.streams k).stops g.number = .waited) (absent : d.started k = false) :
      Step backend answers d .own { d with crashed := true }
  | cancel (g : Goroutine n) (up : d.ended = false) (here : d.jobs g = .stopInterceptors n) :
      Step backend answers d .own (d.setJob g .finished)
  | exit (up : d.ended = false) (done : ∀ g, g ≠ .signal → d.jobs g ≠ .waiting) :
      Step backend answers d .own { d with exited := true }

def machine (backend : (k : Fin n) → Backend (Request k) (Response k))
    (answers : InterceptRequest → InterceptResult → Prop) :
    Machine (Daemon n Request Response) Action where
  Initial d := d = initial
  Step := Step backend answers

end Daemon

end Lspd.Cmd
