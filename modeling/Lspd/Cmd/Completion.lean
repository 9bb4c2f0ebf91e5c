import Lspd.Cmd.Shutdown
import Mathlib.Algebra.Order.BigOperators.Group.Finset
import Mathlib.Data.Fintype.BigOperators

/-! Once the grpc server of lspd is told to stop, only a node that does not take a response
keeps the process from ending: as long as no handler is in `Send`, it has a step of its own
to take until the end, and its own steps do not go on forever. -/

namespace Lspd.Cmd

open Lspd.Common Lspd.Process

variable {n : Nat}

/-- A bound on the steps of a goroutine, given how many it has taken in the `Stop` of
each interceptor. -/
def Job.rank (n : Nat) (progress : Nat → Nat) : Job → Nat
  | .waiting => 4 * n + 5
  | .stopServer => 4 * n + 4
  | .gracefulStop => 4 * n + 3
  | .stopInterceptors m => 4 * (n - m) + 2 - progress m
  | .finished => 0

theorem Job.rank_stopInterceptors (progress : Nat → Nat) :
    Job.rank n progress (.stopInterceptors 0) ≤ 4 * n + 2 := by
  simp only [Job.rank]
  omega

def Serving.rank : Serving → Nat
  | .listening => 2
  | .serving => 1
  | .returned => 0

/-- A sum falls when one of its terms does. -/
theorem sum_lt_of_term {Index : Type} [Fintype Index] {less more : Index → Nat} (i : Index)
    (falls : less i < more i) (others : ∀ j, j ≠ i → less j = more j) :
    ∑ j, less j < ∑ j, more j := by
  refine Finset.sum_lt_sum (fun j _ => ?_) ⟨i, Finset.mem_univ i, falls⟩
  by_cases same : j = i
  · exact same ▸ falls.le
  · exact (others j same).le

namespace Daemon

variable {Request Response : Fin n → Type}
variable {backend : (k : Fin n) → Backend (Request k) (Response k)}
variable {answers : InterceptRequest → InterceptResult → Prop}
variable {d later : Daemon n Request Response} {action : Action}

/-- The server has been stopped, or is about to be by someone who finds it. A call of
`s.Stop` before `s.s` is set has no effect. -/
inductive Asked (d : Daemon n Request Response) : Prop where
  | quit (told : d.quit = true)
  | returned (here : d.serving = .returned)
  | stopping (here : d.serving = .serving) (g : Goroutine n) (stops : d.jobs g = .stopServer)

theorem Asked.setJob (asked : Asked d) {g : Goroutine n} {job : Job}
    (other : d.jobs g = .stopServer → job = .stopServer) : Asked (d.setJob g job) := by
  cases asked with
  | quit told => exact .quit told
  | returned here => exact .returned here
  | stopping here h stops =>
    refine .stopping here h ?_
    by_cases same : h = g
    · subst same
      rw [setJob_self]
      exact other stops
    · rw [setJob_of_ne same]
      exact stops

theorem Asked.same (asked : Asked d) (quit : later.quit = d.quit)
    (serving : later.serving = d.serving) (jobs : later.jobs = d.jobs) : Asked later := by
  cases asked with
  | quit told => exact .quit (quit.trans told)
  | returned here => exact .returned (serving.trans here)
  | stopping here g stops => exact .stopping (serving.trans here) g (jobs ▸ stops)

theorem Asked.step (asked : Asked d) (step : Step backend answers d action later) :
    Asked later := by
  cases step with
  | start | intercept | prompt | listenError | rpc | reply | panic | exit =>
    exact asked.same rfl rfl rfl
  | dialError | returned | signal => exact asked.setJob fun _ => rfl
  | listen up waits =>
    cases asked with
    | quit told => exact .quit told
    | returned here | stopping here =>
      rw [waits] at here
      cases here
  | serve | serveError => exact .returned rfl
  | stopUnset g up here unset =>
    cases asked with
    | quit told => exact .quit told
    | returned here | stopping here =>
      rw [unset] at here
      cases here
  | stopServer => exact .quit rfl
  | gracefulStop g up here | cancel g up here =>
    refine asked.setJob fun stops => ?_
    rw [here] at stops
    cases stops
  | stop g k up here =>
    refine Asked.setJob (d := d.setStream k _) (asked.same rfl rfl rfl) fun stops => ?_
    have busy := here.symm.trans stops
    cases busy

section Progress

variable (sound : Sound backend d) (total : ∀ req, ∃ result, answers req result)
variable (free : ∀ k, ¬ (d.streams k).Sending)
variable (up : d.ended = false) (stuck : ∀ next, ¬ Step backend answers d .own next)
include up stuck

theorem rpcs_of_stuck : d.rpcs = 0 := by
  by_contra pending
  exact stuck _ (.reply up (Nat.pos_of_ne_zero pending))

theorem stopServer_of_stuck (g : Goroutine n) : d.jobs g ≠ .stopServer := by
  intro here
  by_cases unset : d.serving = .listening
  · exact stuck _ (.stopUnset g up here unset)
  · exact stuck _ (.stopServer g up here unset)

theorem Asked.returned_of_stuck (asked : Asked d) : d.serving = .returned := by
  cases asked with
  | quit told =>
    cases here : d.serving with
    | listening => exact (stuck _ (.listen up here)).elim
    | serving => exact (stuck _ (.serve up here told (rpcs_of_stuck up stuck))).elim
    | returned => rfl
  | returned here => exact here
  | stopping here g stops => exact absurd stops (stopServer_of_stuck up stuck g)

theorem still_of_stuck {k : Fin n} (begun : d.started k = true) :
    (d.streams k).Still (backend k) answers :=
  fun _ _ step unprompted => stuck _ (.intercept k up begun step unprompted)

include sound total free

/-- Every `Stop` finds the handlers of its interceptor ended. -/
theorem drained_of_stuck (k : Fin n) : (d.streams k).doneWg = 0 := by
  cases begun : d.started k with
  | true => exact (still_of_stuck up stuck begun).drained (sound.counted k) total (free k)
  | false =>
    rw [(sound.counted k).count, sound.fresh k begun]
    rfl

theorem finished_of_stuck (returned : d.serving = .returned) : d.jobs .server = .finished := by
  have server := sound.server
  rw [returned] at server
  cases here : d.jobs .server with
  | finished => rfl
  | stopInterceptors m =>
    rw [here] at server
    obtain inside | rfl : m < n ∨ m = n := Nat.lt_or_eq_of_le server
    · have told := sound.told ⟨m, inside⟩
      rw [here] at told
      have drained := drained_of_stuck sound total free up stuck ⟨m, inside⟩
      have moves : ∀ {act stream stage}, Interceptor.Stream.Step (backend ⟨m, inside⟩) answers
          (d.streams ⟨m, inside⟩) act stream →
          stream.stops = Function.update (d.streams ⟨m, inside⟩).stops n stage →
          stage ≠ (d.streams ⟨m, inside⟩).stops n →
          (stage = .returned → d.started ⟨m, inside⟩ = true) → False :=
        fun step mine moved cancels =>
          stuck _ (.stop .server ⟨m, inside⟩ up here step mine moved cancels)
      cases stage : (d.streams ⟨m, inside⟩).stops n with
      | idle => exact (moves (.stop n stage) rfl (by rw [stage]; nofun) nofun).elim
      | waiting => exact (moves (.wait n stage drained) rfl (by rw [stage]; nofun) nofun).elim
      | waited =>
        cases begun : d.started ⟨m, inside⟩ with
        | true => exact (moves (.cancel n stage) rfl (by rw [stage]; nofun) fun _ => begun).elim
        | false => exact (stuck _ (.panic .server ⟨m, inside⟩ up here stage begun)).elim
      | returned => exact absurd stage (told.2.1 rfl)
    · exact (stuck _ (.cancel .server up here)).elim
  | waiting | stopServer | gracefulStop =>
    rw [here] at server
    cases server

theorem returned_of_finished (finished : d.jobs .server = .finished) (k : Fin n) :
    d.jobs (.interceptor k) ≠ .waiting := by
  intro waiting
  cases begun : d.started k with
  | false => exact stuck _ (.start k up begun waiting)
  | true =>
    have cancelled := sound.told k
    rw [finished] at cancelled
    have returned := (still_of_stuck up stuck begun).returned (sound.holding k)
      (drained_of_stuck sound total free up stuck k) cancelled
    exact stuck _ (.returned k up returned waiting)

end Progress

theorem Sound.goes_on (sound : Sound backend d) (total : ∀ req, ∃ result, answers req result)
    (free : ∀ k, ¬ (d.streams k).Sending) (asked : Asked d) (up : d.ended = false) :
    ∃ next, Step backend answers d .own next := by
  by_contra none
  have stuck := not_exists.mp none
  have finished := finished_of_stuck sound total free up stuck (asked.returned_of_stuck up stuck)
  refine stuck _ (.exit up fun g other => ?_)
  cases g with
  | interceptor k => exact returned_of_finished sound total free up stuck finished k
  | server =>
    rw [finished]
    nofun
  | signal => exact absurd rfl other

/-- The steps a goroutine has taken in its `Stop` of an interceptor. -/
def progress (d : Daemon n Request Response) (g : Goroutine n) (m : Nat) : Nat :=
  if inside : m < n then ((d.streams ⟨m, inside⟩).stops g.number).progress else 0

def jobRank (d : Daemon n Request Response) (g : Goroutine n) : Nat :=
  (d.jobs g).rank n (d.progress g)

/-- What is left to do apart from the interceptors and the goroutines. -/
def pending (d : Daemon n Request Response) : Nat :=
  (if d.ended then 0 else 1) + d.rpcs + d.serving.rank + ∑ k, if d.started k then 0 else 1

/-- A bound on the steps that lspd takes on its own. -/
def rank (d : Daemon n Request Response) : Nat :=
  d.pending + ∑ k, (d.streams k).rank + ∑ g, d.jobRank g

theorem rank_pending (less : later.pending < d.pending) (streams : later.streams = d.streams)
    (jobs : later.jobs = d.jobs) : later.rank < d.rank := by
  have same : later.jobRank = d.jobRank := by
    funext g
    unfold jobRank progress
    rw [streams, jobs]
  simp only [rank, streams, same]
  omega

theorem progress_here (d : Daemon n Request Response) (g : Goroutine n) (k : Fin n) :
    d.progress g k = ((d.streams k).stops g.number).progress :=
  dif_pos k.isLt

theorem progress_setStream {k : Fin n} {stream : Interceptor.Stream (Request k) (Response k)}
    {g : Goroutine n} (same : stream.stops g.number = (d.streams k).stops g.number) :
    (d.setStream k stream).progress g = d.progress g := by
  have kept : ∀ m, ((d.setStream k stream).streams m).stops g.number =
      (d.streams m).stops g.number :=
    (Function.forall_update_iff d.streams fun m s =>
      s.stops g.number = (d.streams m).stops g.number).mpr ⟨same, fun _ _ => rfl⟩
  funext m
  unfold progress
  split_ifs with inside
  · rw [kept]
  · rfl

theorem sum_rank_setStream {k : Fin n} {stream : Interceptor.Stream (Request k) (Response k)}
    (same : stream.rank = (d.streams k).rank) :
    ∑ m, ((d.setStream k stream).streams m).rank = ∑ m, (d.streams m).rank := by
  have kept : ∀ m, ((d.setStream k stream).streams m).rank = (d.streams m).rank :=
    (Function.forall_update_iff d.streams fun m s => s.rank = (d.streams m).rank).mpr
      ⟨same, fun _ _ => rfl⟩
  exact Finset.sum_congr rfl fun m _ => kept m

theorem sum_jobRank_setStream {k : Fin n} {stream : Interceptor.Stream (Request k) (Response k)}
    (alone : stream.stops = (d.streams k).stops) :
    ∑ g, (d.setStream k stream).jobRank g = ∑ g, d.jobRank g := by
  refine Finset.sum_congr rfl fun g _ => ?_
  show (d.jobs g).rank n ((d.setStream k stream).progress g) = _
  rw [progress_setStream (by rw [alone])]
  rfl

theorem sum_jobRank_setJob {g : Goroutine n} {job : Job}
    (less : job.rank n (d.progress g) < d.jobRank g) :
    ∑ h, (d.setJob g job).jobRank h < ∑ h, d.jobRank h := by
  refine sum_lt_of_term g ?_ fun h other => ?_
  · show ((d.setJob g job).jobs g).rank n (d.progress g) < _
    rw [setJob_self]
    exact less
  · show ((d.setJob g job).jobs h).rank n (d.progress h) = _
    rw [setJob_of_ne other]
    rfl

theorem rank_setJob {g : Goroutine n} {job : Job}
    (less : job.rank n (d.progress g) < d.jobRank g) : (d.setJob g job).rank < d.rank :=
  Nat.add_lt_add_left (sum_jobRank_setJob less) _

/-- An interceptor goes on without a `Stop`. -/
theorem rank_setStream {k : Fin n} {stream : Interceptor.Stream (Request k) (Response k)}
    (alone : stream.stops = (d.streams k).stops) (less : stream.rank < (d.streams k).rank) :
    (d.setStream k stream).rank < d.rank := by
  refine Nat.add_lt_add_of_lt_of_le (Nat.add_lt_add_left ?_ _) (sum_jobRank_setStream alone).le
  refine sum_lt_of_term k ?_ fun m other => ?_
  · simpa only [setStream, Function.update_self] using less
  · simp only [setStream, Function.update_of_ne other]

/-- A `Stop` goes on, and nothing else. -/
theorem rank_stop {g : Goroutine n} {k : Fin n}
    {stream : Interceptor.Stream (Request k) (Response k)} {stage : Interceptor.Stopping}
    (here : d.jobs g = .stopInterceptors k) (same : stream.rank = (d.streams k).rank)
    (mine : stream.stops = Function.update (d.streams k).stops g.number stage)
    (next : stage.progress = ((d.streams k).stops g.number).progress + 1) :
    ((d.setStream k stream).setJob g
      (.stopInterceptors (if stage = .returned then k + 1 else k))).rank < d.rank := by
  refine Nat.add_lt_add_of_le_of_lt (Nat.add_le_add_left (sum_rank_setStream same).le _) ?_
  refine sum_lt_of_term g ?_ fun h other => ?_
  · show (((d.setStream k stream).setJob g _).jobs g).rank n ((d.setStream k stream).progress g) <
      (d.jobs g).rank n (d.progress g)
    rw [setJob_self, here]
    have before := progress_here d g k
    have inside := k.isLt
    have bound := stage.progress_le
    simp only [Job.rank, before]
    split_ifs with returns
    · rw [returns] at next
      have waited : 3 = _ + 1 := next
      omega
    · have after : (d.setStream k stream).progress g k = stage.progress := by
        rw [progress_here]
        simp only [setStream, Function.update_self, mine]
      rw [after]
      omega
  · show (((d.setStream k stream).setJob g _).jobs h).rank n ((d.setStream k stream).progress h) = _
    rw [setJob_of_ne other, progress_setStream]
    · rfl
    · rw [mine, Function.update_of_ne fun equal => other (Goroutine.number_injective equal)]

theorem rank_start {k : Fin n} (here : d.started k = false) :
    rank { d.setStream k { d.streams k with stopRequested := false } with
      started := Function.update d.started k true } < d.rank := by
  have streams : ∑ m, ((d.setStream k { d.streams k with stopRequested := false }).streams m).rank =
      ∑ m, (d.streams m).rank := sum_rank_setStream rfl
  have jobs : ∑ g, (d.setStream k { d.streams k with stopRequested := false }).jobRank g =
      ∑ g, d.jobRank g := sum_jobRank_setStream rfl
  have fewer : (∑ m, if Function.update d.started k true m then 0 else 1) <
      ∑ m, if d.started m then 0 else 1 := by
    refine sum_lt_of_term k ?_ fun m other => ?_
    · simp [here]
    · simp [Function.update_of_ne other]
  exact Nat.add_lt_add_of_lt_of_le
    (Nat.add_lt_add_of_lt_of_le (Nat.add_lt_add_left fewer _) streams.le) jobs.le

theorem Sound.falls (sound : Sound backend d) (step : Step backend answers d .own later) :
    later.rank < d.rank := by
  cases step with
  | start k up here waiting => exact rank_start here
  | intercept k up begun step unprompted =>
    exact rank_setStream unprompted.alone (unprompted.falls step)
  | returned k up here waiting => exact rank_setJob (by simp [jobRank, waiting, Job.rank])
  | listen up here =>
    have less : Serving.rank .serving < d.serving.rank := by simp [here, Serving.rank]
    exact rank_pending (Nat.add_lt_add_right (Nat.add_lt_add_left less _) _) rfl rfl
  | reply up pending =>
    have less : d.rpcs - 1 < d.rpcs := by omega
    exact rank_pending (Nat.add_lt_add_right (Nat.add_lt_add_right
      (Nat.add_lt_add_left less _) _) _) rfl rfl
  | serve up here told drained =>
    have less : Serving.rank .returned ≤ d.serving.rank := Nat.zero_le _
    refine Nat.add_lt_add_of_le_of_lt (Nat.add_le_add_right (Nat.add_le_add_right
      (Nat.add_le_add_left less _) _) _) (sum_jobRank_setJob ?_)
    have bound := Job.rank_stopInterceptors (n := n) (d.progress .server)
    simp only [jobRank, sound.waiting here, Job.rank] at bound ⊢
    omega
  | stopUnset g up here unset | gracefulStop g up here drained =>
    refine rank_setJob ?_
    have bound := Job.rank_stopInterceptors (n := n) (d.progress g)
    simp only [jobRank, here, Job.rank] at bound ⊢
    omega
  | stopServer g up here set =>
    exact Nat.add_lt_add_left (sum_jobRank_setJob (by simp [jobRank, here, Job.rank])) _
  | stop g k up here step mine moved cancels =>
    obtain ⟨loop, handlings, next, _⟩ := Interceptor.Stream.stops_of_step step mine moved
    refine rank_stop here ?_ mine next
    unfold Interceptor.Stream.rank
    rw [loop, handlings]
  | cancel g up here => exact rank_setJob (by simp [jobRank, here, Job.rank, progress])
  | panic g k up | exit up =>
    refine rank_pending ?_ rfl rfl
    simp only [pending, up]
    simp [ended]

section Deciding

variable (deciding : ∀ k, Interceptor.Stream.Deciding (backend k))
variable (decisive : ∀ req result, answers req result → Interceptor.Decisive result)
include deciding decisive

/-- From the moment lspd is told to stop, and whatever comes from outside, it can go on
by itself until the process has ended, unless a handler is in `Send` and its node does not
take the response; and it does so in finitely many steps. -/
theorem shutdown_completes (total : ∀ req, ∃ result, answers req result)
    (reached : (machine backend answers).Reachable d) (asked : Asked d)
    (run : (machine backend answers).Reaches d later) :
    (later.ended = true ∨ (∃ k, (later.streams k).Sending) ∨
        ∃ next, Step backend answers later .own next) ∧
      ∀ steps : Nat → Daemon n Request Response, steps 0 = later →
        ∃ i, ¬ Step backend answers (steps i) .own (steps (i + 1)) := by
  have told : Asked later :=
    Machine.Reaches.induct Asked asked (fun _ _ _ asked step => asked.step step) run
  constructor
  · cases up : later.ended with
    | true => exact .inl rfl
    | false =>
      have sound := sound_of_reachable deciding decisive (reached.trans run)
      by_cases sending : ∃ k, (later.streams k).Sending
      · exact .inr (.inl sending)
      · exact .inr (.inr (sound.goes_on total (not_exists.mp sending) told up))
  · intro steps begins
    have falls : ∀ d action next, (machine backend answers).Reachable d → action = .own →
        (machine backend answers).Step d action next → rank next < rank d := by
      rintro d _ next reached rfl step
      exact (sound_of_reachable deciding decisive reached).falls step
    obtain ⟨i, stops⟩ := Machine.Reachable.ends_when rank falls (begins ▸ reached.trans run)
    exact ⟨i, fun step => stops ⟨.own, rfl, step⟩⟩

end Deciding

abbrev SampleDaemon :=
  Daemon 1 (fun _ => Lnd.ForwardHtlcInterceptRequest) fun _ => Lnd.ForwardHtlcInterceptResponse

def sampleResumes (_ : InterceptRequest) (result : InterceptResult) : Prop := result = .resume

abbrev sampleMachine : Machine SampleDaemon Action :=
  machine (fun _ => Interceptor.sampleLnd.backend) sampleResumes

/-- A signal comes while lspd serves, and an rpc before the server is stopped. -/
theorem shutdown_completes_sample :
    ∃ d later : SampleDaemon, sampleMachine.Reachable d ∧ Asked d ∧ sampleMachine.Reaches d later ∧
      later.quit = true ∧ later.rpcs = 1 ∧
      (∃ next, sampleMachine.Step later .own next) ∧
        ∀ steps : Nat → SampleDaemon, steps 0 = later →
          ∃ i, ¬ sampleMachine.Step (steps i) .own (steps (i + 1)) := by
  have begun : sampleMachine.Reachable initial := .start rfl
  have started := begun.step (.start 0 rfl rfl rfl)
  have serving := started.step (.listen rfl rfl)
  have signalled := serving.step (.signal rfl rfl)
  have called := signalled.here.step (.rpc rfl rfl rfl)
  have stopped := called.step (.stopServer .signal rfl rfl nofun)
  have decisive : ∀ req result, sampleResumes req result → Interceptor.Decisive result :=
    fun _ _ resumes => resumes ▸ Interceptor.decisive_resume
  obtain ⟨goes, ends⟩ := shutdown_completes (fun _ => Interceptor.lnd_deciding _) decisive
    (fun _ => ⟨_, rfl⟩) signalled (.stopping rfl .signal rfl) stopped
  refine ⟨_, _, signalled, .stopping rfl .signal rfl, stopped, rfl, rfl,
    (goes.resolve_left nofun).resolve_left ?_, ends⟩
  rintro ⟨k, _, m, response, here⟩
  obtain rfl : k = 0 := Subsingleton.elim ..
  cases here

end Daemon

end Lspd.Cmd
