import Lspd.Process.Singleflight
import Mathlib.Data.List.Induction
import Mathlib.Data.List.Pairwise
import Mathlib.Data.List.Perm.Basic

/-! The executions of a deduplicated service, running and finished, and the
three ways one step can change them. Invariants of a service are proved over
these instead of the scheduling steps. -/

namespace Lspd.Process

/-- What is left of a caller's run for a reader: its request and its calls. -/
structure Execution (Req Op : Type) (Reply : Op → Type) where
  leader : Req
  history : History Op Reply

def Flight.execution (flight : Flight Req Op Reply α) : Execution Req Op Reply :=
  ⟨flight.leader, flight.history⟩

def Landing.execution (landing : Landing Req Op Reply α) : Execution Req Op Reply :=
  ⟨landing.leader, landing.history⟩

namespace Group

variable {World Req Op : Type} {Reply : Op → Type} {α : Type}

def running (group : Group World Req Op Reply α) : List (Execution Req Op Reply) :=
  group.flights.map Flight.execution

def finished (group : Group World Req Op Reply α) : List (Execution Req Op Reply) :=
  group.landings.map Landing.execution

def executions (group : Group World Req Op Reply α) : List (Execution Req Op Reply) :=
  group.finished ++ group.running

theorem running_subset (group : Group World Req Op Reply α) :
    group.running ⊆ group.executions :=
  List.subset_append_right _ _

theorem finished_subset (group : Group World Req Op Reply α) :
    group.finished ⊆ group.executions :=
  List.subset_append_left _ _

end Group

namespace Service

variable {World Req Key Op : Type} {Reply : Op → Type} {α : Type}
  {service : Service World Req Key Op Reply α} {group after : Group World Req Op Reply α}

/-- One step leaves the world alone and starts or finishes executions, changes
the world from outside, or appends one call to one running execution. -/
inductive Effect (service : Service World Req Key Op Reply α)
    (group after : Group World Req Op Reply α) : Prop where
  | quiet (fresh : List (Execution Req Op Reply)) (world : after.world = group.world)
      (empty : ∀ execution ∈ fresh, execution.history = [])
      (executions : after.executions.Perm (fresh ++ group.executions))
      (running : after.running ⊆ fresh ++ group.running)
  | outside (interferes : service.interfere group.world after.world)
      (finished : after.finished = group.finished) (running : after.running = group.running)
  | event (before later : List (Execution Req Op Reply)) (leader : Req)
      (history : History Op Reply) (happened : Event Op Reply)
      (responds : service.respond group.world happened.1 happened.2 after.world)
      (finished : after.finished = group.finished)
      (running : group.running = before ++ ⟨leader, history⟩ :: later)
      (extended : after.running = before ++ ⟨leader, history ++ [happened]⟩ :: later)

theorem Step.effect (step : service.Step group after) : service.Effect group after := by
  cases step with
  | lead request free =>
    refine .quiet [⟨request, []⟩] rfl (by simp) ?_ ?_
    · simp only [Group.executions, Group.running, List.map_append, ← List.append_assoc]
      exact List.perm_append_comm
    · simp [Group.running, Flight.execution]
  | join request same =>
    exact .quiet [] rfl (by simp) (by simp [Group.executions, Group.running, Group.finished,
      Flight.execution]) (by simp [Group.running, Flight.execution])
  | @call world event world' before rest landings leader followers history program next step
      responds =>
    exact .event (before.map Flight.execution) (rest.map Flight.execution) leader history event
      responds rfl (by simp [Group.running, Flight.execution])
      (by simp [Group.running, Flight.execution])
  | unroll step =>
    exact .quiet [] rfl (by simp) (by simp [Group.executions, Group.running, Group.finished,
      Flight.execution]) (by simp [Group.running, Flight.execution])
  | land =>
    refine .quiet [] rfl (by simp) ?_ ?_
    · simp only [Group.executions, Group.running, Group.finished, List.map_append, List.map_cons,
        List.map_nil, List.append_assoc, List.cons_append, List.nil_append, Flight.execution,
        Landing.execution]
      exact List.perm_middle.symm.append_left _
    · simp only [Group.running, List.map_append, List.map_cons, List.nil_append]
      exact ((List.sublist_cons_self _ _).append_left _).subset
  | interfere outside => exact .outside outside rfl rfl

/-- An execution after a step was there before, has just begun, or is the one
that got a reply. -/
theorem Effect.origin {execution : Execution Req Op Reply} (effect : service.Effect group after)
    (member : execution ∈ after.executions) :
    execution ∈ group.executions ∨ execution.history = [] ∨
      ∃ history event, execution.history = history ++ [event] ∧
        ⟨execution.leader, history⟩ ∈ group.running ∧
        service.respond group.world event.1 event.2 after.world := by
  cases effect with
  | quiet fresh world empty executions running =>
    rcases List.mem_append.mp (executions.subset member) with begun | old
    · exact .inr (.inl (empty execution begun))
    · exact .inl old
  | outside interferes finished running =>
    rw [Group.executions, finished, running] at member
    exact .inl member
  | event before later leader history happened responds finished running extended =>
    rw [Group.executions, finished, extended] at member
    simp only [Group.executions, running, List.mem_append, List.mem_cons] at member ⊢
    rcases member with done | earlier | rfl | afterwards
    · exact .inl (.inl done)
    · exact .inl (.inr (.inl earlier))
    · exact .inr (.inr ⟨history, happened, rfl, .inr (.inl rfl), responds⟩)
    · exact .inl (.inr (.inr (.inr afterwards)))

/-- A property of executions that later calls cannot establish holds before a
step if it holds after it. -/
theorem Effect.forall_before (effect : service.Effect group after)
    (holds : Execution Req Op Reply → Prop)
    (back : ∀ leader history event, holds ⟨leader, history ++ [event]⟩ → holds ⟨leader, history⟩)
    (later : ∀ execution ∈ after.executions, holds execution) :
    ∀ execution ∈ group.executions, holds execution := by
  intro execution member
  cases effect with
  | quiet fresh world empty executions running =>
    exact later execution (executions.symm.subset (List.mem_append_right _ member))
  | outside interferes finished running =>
    apply later execution
    rwa [Group.executions, finished, running]
  | event before rest leader history happened responds finished running extended =>
    rw [Group.executions, running] at member
    simp only [Group.executions, finished, extended] at later
    simp only [List.mem_append, List.mem_cons] at member later
    rcases member with done | earlier | rfl | afterwards
    · exact later execution (.inl done)
    · exact later execution (.inr (.inl earlier))
    · exact back leader history happened (later _ (.inr (.inr (.inl rfl))))
    · exact later execution (.inr (.inr (.inr afterwards)))

section views

/-! What is collected from all executions changes by what the new call adds. -/

variable {β : Type} {view : Execution Req Op Reply → List β}

theorem flatMap_quiet {fresh : List (Execution Req Op Reply)}
    (empty : ∀ execution ∈ fresh, view execution = [])
    (executions : after.executions.Perm (fresh ++ group.executions)) :
    (after.executions.flatMap view).Perm (group.executions.flatMap view) := by
  have perm := executions.flatMap_right view
  rwa [List.flatMap_append, List.flatMap_eq_nil_iff.mpr empty, List.nil_append] at perm

theorem flatMap_outside (finished : after.finished = group.finished)
    (running : after.running = group.running) :
    after.executions.flatMap view = group.executions.flatMap view := by
  rw [Group.executions, Group.executions, finished, running]

theorem flatMap_event {before later : List (Execution Req Op Reply)} {leader : Req}
    {history : History Op Reply} {happened : Event Op Reply} {gain : List β}
    (grown : view ⟨leader, history ++ [happened]⟩ = view ⟨leader, history⟩ ++ gain)
    (finished : after.finished = group.finished)
    (running : group.running = before ++ ⟨leader, history⟩ :: later)
    (extended : after.running = before ++ ⟨leader, history ++ [happened]⟩ :: later) :
    (after.executions.flatMap view).Perm (gain ++ group.executions.flatMap view) := by
  classical
  simp only [Group.executions, finished, running, extended, List.flatMap_append, List.flatMap_cons,
    grown]
  rw [List.perm_iff_count]
  intro value
  simp only [List.count_append]
  omega

end views

theorem Reachable.running_distinct {world : World} (reachable : service.Reachable world group) :
    group.running.Pairwise (fun one two => service.key one.leader ≠ service.key two.leader) :=
  List.pairwise_map.mpr reachable.keys_distinct

/-- One execution runs under a key. -/
theorem Reachable.running_unique {world : World} (reachable : service.Reachable world group)
    {one two : Execution Req Op Reply} (first : one ∈ group.running) (second : two ∈ group.running)
    (same : service.key one.leader = service.key two.leader) : one = two := by
  by_contra different
  have symmetric : Std.Symm fun one two : Execution Req Op Reply =>
    service.key one.leader ≠ service.key two.leader := ⟨fun _ _ => Ne.symm⟩
  exact reachable.running_distinct.forall first second different same

theorem Sound.obeyed {contract : Req → Contract Op Reply}
    {post : Req → History Op Reply → α → Prop} (sound : Sound contract post group) :
    ∀ execution ∈ group.executions, (contract execution.leader).Obeyed execution.history := by
  intro execution member
  rcases List.mem_append.mp member with finished | running
  · obtain ⟨landing, landed, rfl⟩ := List.mem_map.mp finished
    exact (sound.landings landing landed).1
  · obtain ⟨flight, flying, rfl⟩ := List.mem_map.mp running
    exact (sound.flights flight flying).1

end Service

section drive

variable {World Req Key Op : Type} {Reply : Op → Type} {α : Type}

/-- A program in the middle of its run. -/
structure Thread (World Op : Type) (Reply : Op → Type) (α : Type) where
  world : World
  history : History Op Reply
  program : Program Op Reply α

/-- Run a program for a number of steps against an outside that answers every
call in one way. -/
def Thread.drive (answer : World → (op : Op) → Reply op × World) :
    Nat → Thread World Op Reply α → Thread World Op Reply α
  | fuel + 1, ⟨world, history, .call op next⟩ =>
    Thread.drive answer fuel
      ⟨(answer world op).2, history ++ [⟨op, (answer world op).1⟩], next (answer world op).1⟩
  | fuel + 1, ⟨world, history, .loop body start next⟩ =>
    Thread.drive answer fuel ⟨world, history, .unroll body start next⟩
  | _, thread => thread

/-- Driving a program is one of its runs. -/
theorem Thread.drive_runs (answer : World → (op : Op) → Reply op × World) (fuel : Nat)
    (thread : Thread World Op Reply α) :
    ∃ more, (thread.drive answer fuel).history = thread.history ++ more ∧
      thread.program.Runs more (thread.drive answer fuel).program := by
  induction fuel generalizing thread with
  | zero => exact ⟨[], by simp [Thread.drive], .here⟩
  | succ fuel ih =>
    obtain ⟨world, history, program⟩ := thread
    cases program with
    | done result => exact ⟨[], by simp [Thread.drive], .here⟩
    | panic => exact ⟨[], by simp [Thread.drive], .here⟩
    | call op next =>
      obtain ⟨more, same, runs⟩ := ih ⟨(answer world op).2,
        history ++ [⟨op, (answer world op).1⟩], next (answer world op).1⟩
      exact ⟨⟨op, (answer world op).1⟩ :: more, by simpa [Thread.drive] using same, .call _ runs⟩
    | loop body start next =>
      obtain ⟨more, same, runs⟩ := ih ⟨world, history, .unroll body start next⟩
      exact ⟨more, same, .unroll runs⟩

variable {service : Service World Req Key Op Reply α}
  {answer : World → (op : Op) → Reply op × World} {initial : World}

theorem Service.Reachable.drive {before after : List (Flight Req Op Reply α)}
    {landings : List (Landing Req Op Reply α)} {leader : Req} {followers : List Req}
    (answers : ∀ world op, service.respond world op (answer world op).1 (answer world op).2)
    (fuel : Nat) (thread : Thread World Op Reply α)
    (reachable : service.Reachable initial ⟨thread.world,
      before ++ ⟨leader, followers, thread.history, thread.program⟩ :: after, landings⟩) :
    service.Reachable initial ⟨(thread.drive answer fuel).world,
      before ++ ⟨leader, followers, (thread.drive answer fuel).history,
        (thread.drive answer fuel).program⟩ :: after, landings⟩ := by
  induction fuel generalizing thread with
  | zero => exact reachable
  | succ fuel ih =>
    obtain ⟨world, history, program⟩ := thread
    cases program with
    | done result => exact reachable
    | panic => exact reachable
    | call op next => exact ih _ (reachable.tail (.call (.call _) (answers world op)))
    | loop body start next => exact ih _ (reachable.tail (.unroll .unroll))

/-- A whole deduplicated execution: the leader calls, the followers arrive while
it runs, and all get its result. -/
theorem Service.Reachable.serve {world : World} {landings : List (Landing Req Op Reply α)}
    (reachable : service.Reachable initial ⟨world, [], landings⟩)
    (answers : ∀ world op, service.respond world op (answer world op).1 (answer world op).2)
    (leader : Req) (followers : List Req)
    (same : ∀ follower ∈ followers, service.key leader = service.key follower)
    (fuel : Nat) {result : α}
    (finishes : ((Thread.mk world [] (service.body leader)).drive answer fuel).program =
      .done result) :
    service.Reachable initial ⟨((Thread.mk world [] (service.body leader)).drive answer fuel).world,
      [], landings ++ [⟨leader, followers,
        ((Thread.mk world [] (service.body leader)).drive answer fuel).history, result⟩]⟩ := by
  have joined : service.Reachable initial
      ⟨world, [] ++ ⟨leader, followers, [], service.body leader⟩ :: [], landings⟩ := by
    induction followers using List.reverseRecOn with
    | nil => exact reachable.tail (.lead leader (by simp))
    | append_singleton earlier last ih =>
      have earlierSame : ∀ follower ∈ earlier, service.key leader = service.key follower :=
        fun follower member => same follower (List.mem_append_left _ member)
      exact (ih earlierSame).tail (.join last (same last (by simp)))
  have driven := Service.Reachable.drive answers fuel (Thread.mk world [] (service.body leader))
    joined
  rw [finishes] at driven
  exact driven.tail .land

namespace Program

/-- Against an outside that answers every call in one way, a program and the
world around it become others. No number of steps is fixed. -/
inductive Leads (answer : World → (op : Op) → Reply op × World) :
    World → Program Op Reply α → World → Program Op Reply α → Prop where
  | here : Leads answer world program world program
  | call (rest : Leads answer (answer world op).2 (next (answer world op).1) after later) :
      Leads answer world (.call op next) after later
  | unroll (rest : Leads answer world (unroll body start next) after later) :
      Leads answer world (.loop body start next) after later

section leads

variable {answer : World → (op : Op) → Reply op × World} {world middle after : World} {β σ : Type}

theorem Leads.trans {one two three : Program Op Reply α}
    (first : Leads answer world one middle two) (second : Leads answer middle two after three) :
    Leads answer world one after three := by
  induction first with
  | here => exact second
  | call rest ih => exact .call (ih second)
  | unroll rest ih => exact .unroll (ih second)

/-- The outside leaves no choice: a program on its way to a result still gets there. -/
theorem Leads.continues {program later : Program Op Reply α} {result : α}
    (way : Leads answer world program middle later)
    (ends : Leads answer world program after (.done result)) :
    Leads answer middle later after (.done result) := by
  induction way with
  | here => exact ends
  | call rest ih =>
    cases ends with
    | call ends => exact ih ends
  | unroll rest ih =>
    cases ends with
    | unroll ends => exact ih ends

theorem Leads.bind {program : Program Op Reply β} {value : β} {rest : β → Program Op Reply α}
    (leads : Leads answer world program middle (.done value)) :
    Leads answer world (program.bind rest) middle (rest value) := by
  generalize same : Program.done value = last at leads
  induction leads with
  | here =>
    subst same
    exact .here
  | call _ ih => exact .call (ih same)
  | unroll _ ih =>
    rw [Program.bind]
    apply Leads.unroll
    rw [← unroll_bind]
    exact ih same

/-- A quantity no answer lowers is not lowered on the way. -/
theorem Leads.mono {program later : Program Op Reply α} (count : World → Nat)
    (grows : ∀ world op, count world ≤ count (answer world op).2)
    (leads : Leads answer world program after later) : count world ≤ count after := by
  induction leads with
  | here => exact Nat.le_refl _
  | call rest ih => exact Nat.le_trans (grows _ _) ih
  | unroll rest ih => exact ih

theorem leads_ask {op : Op} {rest : Reply op → Program Op Reply α} {later : Program Op Reply α}
    (leads : Leads answer (answer world op).2 (rest (answer world op).1) after later) :
    Leads answer world (ask op >>= rest) after later := .call leads

variable {body : σ → Program Op Reply (σ ⊕ α)} {start state : σ}

theorem leads_next (leads : Leads answer world (body start) after (.done (.inl state))) :
    Leads answer world (forever body start) after (forever body state) :=
  .unroll leads.bind

theorem leads_leaves {result : α}
    (leads : Leads answer world (body start) after (.done (.inr result))) :
    Leads answer world (forever body start) after (.done result) :=
  .unroll leads.bind

end leads

end Program

end drive

end Lspd.Process
