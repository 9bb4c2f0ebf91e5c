import Lspd.Cmd.Run

/-! What the goroutine of the grpc server leaves behind on its way through the
interceptors, in every run of lspd: those it has passed are cancelled. -/

namespace Lspd.Cmd

open Lspd.Common Lspd.Process

variable {n : Nat}

theorem Goroutine.number_injective {g h : Goroutine n} (same : g.number = h.number) : g = h := by
  rcases g with ⟨k, inside⟩ | _ | _ <;> rcases h with ⟨m, bound⟩ | _ | _ <;>
    simp only [number] at same <;> first | rfl | omega | skip
  rw [Goroutine.interceptor.injEq, Fin.mk.injEq]
  exact same

namespace Daemon

variable {Request Response : Fin n → Type}
variable {backend : (k : Fin n) → Backend (Request k) (Response k)}
variable {answers : InterceptRequest → InterceptResult → Prop}
variable {d later : Daemon n Request Response} {action : Action}

theorem setJob_self (d : Daemon n Request Response) (g : Goroutine n) (job : Job) :
    (d.setJob g job).jobs g = job := by
  simp only [setJob, Function.update_self]

theorem setJob_of_ne {g h : Goroutine n} (other : h ≠ g) (job : Job) :
    (d.setJob g job).jobs h = d.jobs h := by
  simp only [setJob, Function.update_of_ne other]

/-- What a stream has of the `Stop` of the goroutine of the server, by its job. -/
def Told (job : Job) (k : Fin n) {Request Response : Type}
    (s : Interceptor.Stream Request Response) : Prop :=
  match job with
  | .stopInterceptors m => (k < m → s.cancelled = true) ∧ (k.val = m → s.stops n ≠ .returned) ∧
      (m < k → s.stops n = .idle)
  | .finished => s.cancelled = true
  | _ => s.stops n = .idle

/-- Where the goroutine of the server can be, by the server. -/
def Leads (n : Nat) : Serving → Job → Prop
  | .returned, .stopInterceptors m => m ≤ n
  | .returned, .finished => True
  | .returned, _ => False
  | _, job => job = .waiting

theorem Leads.stops {phase : Serving} {m next : Nat}
    (leads : Leads n phase (.stopInterceptors m)) (inside : next ≤ n) :
    Leads n phase (.stopInterceptors next) := by
  cases phase with
  | returned => exact inside
  | listening | serving => cases leads

structure Sound (backend : (k : Fin n) → Backend (Request k) (Response k))
    (d : Daemon n Request Response) : Prop where
  server : Leads n d.serving (d.jobs .server)
  told : ∀ k, Told (d.jobs .server) k (d.streams k)
  counted : ∀ k, (d.streams k).Counted (backend k)
  holding : ∀ k, (d.streams k).Holding
  fresh : ∀ k, d.started k = false → (d.streams k).handlings = []

theorem sound_initial : Sound backend (initial : Daemon n Request Response) where
  server := rfl
  told _ := rfl
  counted _ := ⟨rfl, fun _ _ found => by simp [initial, Interceptor.Stream.initial] at found⟩
  holding _ := nofun
  fresh _ _ := rfl

theorem Sound.setJob (sound : Sound backend d) {g : Goroutine n} (other : g ≠ .server)
    (job : Job) : Sound backend (d.setJob g job) := by
  have same := setJob_of_ne (d := d) other.symm job
  exact ⟨same ▸ sound.server, same ▸ sound.told, sound.counted, sound.holding, sound.fresh⟩

/-- One interceptor goes on, and the goroutine of the server with it. -/
theorem Sound.replace (sound : Sound backend d) {k : Fin n} {job : Job}
    {stream : Interceptor.Stream (Request k) (Response k)} (server : Leads n d.serving job)
    (told : Told job k stream) (others : ∀ m, m ≠ k → Told job m (d.streams m))
    (counted : stream.Counted (backend k)) (holding : stream.Holding)
    (fresh : d.started k = false → stream.handlings = []) :
    Sound backend ((d.setStream k stream).setJob .server job) := by
  have same := (d.setStream k stream).setJob_self .server job
  refine ⟨same ▸ server, ?_, ?_, ?_, ?_⟩
  · rw [same]
    exact (Function.forall_update_iff d.streams fun m s => Told job m s).mpr ⟨told, others⟩
  · exact (Function.forall_update_iff d.streams fun m s => s.Counted (backend m)).mpr
      ⟨counted, fun m _ => sound.counted m⟩
  · exact (Function.forall_update_iff d.streams fun m s => s.Holding).mpr
      ⟨holding, fun m _ => sound.holding m⟩
  · exact (Function.forall_update_iff d.streams fun m s => d.started m = false →
      s.handlings = []).mpr ⟨fresh, fun m _ => sound.fresh m⟩

theorem Sound.setStream (sound : Sound backend d) {k : Fin n}
    {stream : Interceptor.Stream (Request k) (Response k)}
    (told : Told (d.jobs .server) k stream) (counted : stream.Counted (backend k))
    (holding : stream.Holding) (fresh : d.started k = false → stream.handlings = []) :
    Sound backend (d.setStream k stream) := by
  have kept := sound.replace sound.server told (fun m _ => sound.told m) counted holding fresh
  have same : (d.setStream k stream).setJob .server (d.jobs .server) = d.setStream k stream :=
    congrArg (fun jobs => { d.setStream k stream with jobs := jobs })
      (Function.update_eq_self ..)
  exact same ▸ kept

theorem Told.mono {job : Job} {k : Fin n} {Request Response : Type}
    {s later : Interceptor.Stream Request Response} (told : Told job k s)
    (stops : later.stops n = s.stops n) (cancelled : s.cancelled = true → later.cancelled = true) :
    Told job k later := by
  cases job with
  | stopInterceptors m => exact ⟨fun behind => cancelled (told.1 behind),
      fun here => stops ▸ told.2.1 here, fun ahead => stops ▸ told.2.2 ahead⟩
  | finished => exact cancelled told
  | waiting | stopServer | gracefulStop => exact stops.trans told

/-- The goroutine of the server goes on to the next interceptor. -/
theorem Told.next {k m : Fin n} {Request Response : Type}
    {s : Interceptor.Stream Request Response} (told : Told (.stopInterceptors k) m s)
    (other : m ≠ k) : Told (.stopInterceptors (k + 1)) m s := by
  have different : m.val ≠ k.val := fun same => other (Fin.ext same)
  refine ⟨fun behind => told.1 ?_, fun here => ?_, fun ahead => told.2.2 ?_⟩
  · omega
  · rw [told.2.2 (by omega)]
    nofun
  · omega

section Deciding

variable (deciding : ∀ k, Interceptor.Stream.Deciding (backend k))
variable (decisive : ∀ req result, answers req result → Interceptor.Decisive result)
include deciding decisive

theorem Sound.intercept (sound : Sound backend d) {k : Fin n} {act : Interceptor.Stream.Action}
    {stream : Interceptor.Stream (Request k) (Response k)} (begun : d.started k = true)
    (step : Interceptor.Stream.Step (backend k) answers (d.streams k) act stream)
    (alone : stream.stops = (d.streams k).stops) : Sound backend (d.setStream k stream) := by
  have cancelled := Interceptor.Stream.cancelled_of_step step
  refine sound.setStream ((sound.told k).mono (by rw [alone]) cancelled)
    ((sound.counted k).step (deciding k) decisive step) ((sound.holding k).step step) fun off => ?_
  rw [begun] at off
  cases off

/-- A `Stop` of some goroutine goes on. -/
theorem Sound.stop (sound : Sound backend d) {g : Goroutine n} {k : Fin n}
    {act : Interceptor.Stream.Action} {stream : Interceptor.Stream (Request k) (Response k)}
    {stage : Interceptor.Stopping} (here : d.jobs g = .stopInterceptors k)
    (step : Interceptor.Stream.Step (backend k) answers (d.streams k) act stream)
    (mine : stream.stops = Function.update (d.streams k).stops g.number stage)
    (moved : stage ≠ (d.streams k).stops g.number) :
    Sound backend ((d.setStream k stream).setJob g
      (.stopInterceptors (if stage = .returned then k + 1 else k))) := by
  have counted := (sound.counted k).step (deciding k) decisive step
  have holding := (sound.holding k).step step
  obtain ⟨_, handlings, _, cancelled⟩ := Interceptor.Stream.stops_of_step step mine moved
  have fresh : d.started k = false → stream.handlings = [] :=
    fun off => handlings.trans (sound.fresh k off)
  by_cases own : g = .server
  · subst own
    have told := sound.told
    have server := sound.server
    rw [here] at told server
    have after : stream.stops n = stage := by
      rw [mine]
      exact Function.update_self ..
    refine sound.replace (server.stops (by split <;> omega)) ?_ ?_ counted holding fresh
    · split_ifs with returns
      · exact ⟨fun _ => cancelled returns, by omega, by omega⟩
      · exact ⟨by omega, fun _ => by rwa [after], by omega⟩
    · intro m other
      split_ifs with returns
      · exact (told m).next other
      · exact told m
  · have apart : n ≠ g.number := fun same =>
      own (Goroutine.number_injective (same.symm.trans rfl))
    refine Sound.setJob (sound.setStream ?_ counted holding fresh) own _
    refine (sound.told k).mono ?_ (Interceptor.Stream.cancelled_of_step step)
    rw [mine, Function.update_of_ne apart]

omit deciding decisive in
/-- The goroutine of the server never calls `s.Stop`. -/
theorem Sound.apart (sound : Sound backend d) {g : Goroutine n}
    (here : d.jobs g = .stopServer ∨ d.jobs g = .gracefulStop) : g ≠ .server := by
  rintro rfl
  have server := sound.server
  rcases here with here | here <;> rw [here] at server <;> cases phase : d.serving <;>
    rw [phase] at server <;> cases server

omit deciding decisive in
theorem Sound.waiting (sound : Sound backend d) (here : d.serving = .serving) :
    d.jobs .server = .waiting := by
  have server := sound.server
  rwa [here] at server

omit deciding decisive in
theorem Sound.serve (sound : Sound backend d) (here : d.serving = .serving) :
    Sound backend { d.setJob .server (.stopInterceptors 0) with serving := .returned } := by
  have same := d.setJob_self .server (.stopInterceptors 0)
  refine ⟨?_, ?_, sound.counted, sound.holding, sound.fresh⟩
  · show Leads n .returned ((d.setJob .server (.stopInterceptors 0)).jobs .server)
    rw [same]
    exact Nat.zero_le n
  · intro k
    show Told ((d.setJob .server (.stopInterceptors 0)).jobs .server) k (d.streams k)
    have idle : (d.streams k).stops n = .idle := by
      have told := sound.told k
      rwa [sound.waiting here] at told
    rw [same]
    exact ⟨nofun, fun _ => by rw [idle]; nofun, fun _ => idle⟩

omit deciding decisive in
theorem Sound.finish (sound : Sound backend d)
    (here : d.jobs .server = .stopInterceptors n) : Sound backend (d.setJob .server .finished) := by
  have same := d.setJob_self .server .finished
  have server := sound.server
  have told := sound.told
  rw [here] at server told
  refine ⟨?_, ?_, sound.counted, sound.holding, sound.fresh⟩
  · show Leads n d.serving ((d.setJob .server .finished).jobs .server)
    rw [same]
    cases phase : d.serving with
    | returned => trivial
    | listening | serving =>
      rw [phase] at server
      cases server
  · intro k
    rw [same]
    exact (told k).1 k.isLt

theorem Sound.step (sound : Sound backend d) (step : Step backend answers d action later) :
    Sound backend later := by
  cases step with
  | start k up here waiting =>
    have kept : Sound backend (d.setStream k { d.streams k with stopRequested := false }) :=
      sound.setStream ((sound.told k).mono rfl id)
        ((sound.counted k).same rfl rfl fun _ held => held) (sound.holding k) (sound.fresh k)
    refine ⟨kept.server, kept.told, kept.counted, kept.holding, fun m off => kept.fresh m ?_⟩
    by_cases same : m = k
    · simp [same] at off
    · exact (Function.update_of_ne same true d.started).symm.trans off
  | intercept k up begun step unprompted =>
    exact sound.intercept deciding decisive begun step unprompted.alone
  | prompt k up begun step alone => exact sound.intercept deciding decisive begun step alone
  | dialError k | returned k | signal => exact sound.setJob (by nofun) _
  | listen up here =>
    refine ⟨?_, sound.told, sound.counted, sound.holding, sound.fresh⟩
    have server := sound.server
    rwa [here] at server
  | listenError | rpc | reply | panic | exit =>
    exact ⟨sound.server, sound.told, sound.counted, sound.holding, sound.fresh⟩
  | serve up here | serveError up here => exact sound.serve here
  | stopUnset g up here => exact sound.setJob (sound.apart (.inl here)) _
  | stopServer g up here =>
    have kept := sound.setJob (sound.apart (.inl here)) .gracefulStop
    exact ⟨kept.server, kept.told, kept.counted, kept.holding, kept.fresh⟩
  | gracefulStop g up here => exact sound.setJob (sound.apart (.inr here)) _
  | stop g k up here step mine moved cancels =>
    exact sound.stop deciding decisive here step mine moved
  | cancel g up here =>
    by_cases own : g = .server
    · subst own
      exact sound.finish here
    · exact sound.setJob own _

theorem sound_of_reachable (reachable : (machine backend answers).Reachable d) :
    Sound backend d := by
  refine Machine.Reachable.induct (Sound backend) ?_ ?_ reachable
  · rintro _ rfl
    exact sound_initial
  · intro d action later _ sound step
    exact sound.step deciding decisive step

end Deciding

end Daemon

end Lspd.Cmd
