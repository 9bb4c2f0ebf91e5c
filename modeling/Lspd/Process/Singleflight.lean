import Lspd.Process.Program
import Mathlib.Logic.Relation

/-! Duplicate suppression as in Go's `singleflight.Group`: a caller whose key is
being worked on waits for the running execution and receives its result. The
executions are programs interleaved call by call over a shared world. -/

namespace Lspd.Process

/-- A running execution, started by the request of its first caller. -/
structure Flight (Req Op : Type) (Reply : Op → Type) (α : Type) where
  leader : Req
  followers : List Req
  history : History Op Reply
  program : Program Op Reply α

/-- A finished execution; `result` was returned to the leader and every follower. -/
structure Landing (Req Op : Type) (Reply : Op → Type) (α : Type) where
  leader : Req
  followers : List Req
  history : History Op Reply
  result : α

/-- The requests of all callers that received the result. -/
def Landing.callers (landing : Landing Req Op Reply α) : List Req :=
  landing.leader :: landing.followers

structure Group (World Req Op : Type) (Reply : Op → Type) (α : Type) where
  world : World
  flights : List (Flight Req Op Reply α)
  landings : List (Landing Req Op Reply α)

/-- The same executions in another world. -/
def Group.inWorld (image : World → Other) (group : Group World Req Op Reply α) :
    Group Other Req Op Reply α :=
  ⟨image group.world, group.flights, group.landings⟩

/-- Code deduplicated by `key`. `respond` is the effect of one atomic call on
the world, `interfere` what others may do to the world at any time. -/
structure Service (World Req Key Op : Type) (Reply : Op → Type) (α : Type) where
  key : Req → Key
  body : Req → Program Op Reply α
  respond : World → (op : Op) → Reply op → World → Prop
  interfere : World → World → Prop

namespace Service

variable {World Req Key Op : Type} {Reply : Op → Type} {α : Type}

def idle (world : World) : Group World Req Op Reply α := ⟨world, [], []⟩

/-- One step of any of the concurrent callers, executions or outsiders. -/
inductive Step (service : Service World Req Key Op Reply α) :
    Group World Req Op Reply α → Group World Req Op Reply α → Prop where
  | lead (request : Req)
      (free : ∀ flight ∈ flights, service.key flight.leader ≠ service.key request) :
      Step service ⟨world, flights, landings⟩
        ⟨world, flights ++ [⟨request, [], [], service.body request⟩], landings⟩
  | join (request : Req) (same : service.key leader = service.key request) :
      Step service ⟨world, before ++ ⟨leader, followers, history, program⟩ :: after, landings⟩
        ⟨world, before ++ ⟨leader, followers ++ [request], history, program⟩ :: after, landings⟩
  | call (step : program.Step (some event) next)
      (responds : service.respond world event.1 event.2 world') :
      Step service ⟨world, before ++ ⟨leader, followers, history, program⟩ :: after, landings⟩
        ⟨world', before ++ ⟨leader, followers, history ++ [event], next⟩ :: after, landings⟩
  | unroll (step : program.Step none next) :
      Step service ⟨world, before ++ ⟨leader, followers, history, program⟩ :: after, landings⟩
        ⟨world, before ++ ⟨leader, followers, history, next⟩ :: after, landings⟩
  | land :
      Step service ⟨world, before ++ ⟨leader, followers, history, .done result⟩ :: after, landings⟩
        ⟨world, before ++ after, landings ++ [⟨leader, followers, history, result⟩]⟩
  | interfere (outside : service.interfere world world') :
      Step service ⟨world, flights, landings⟩ ⟨world', flights, landings⟩

/-- The states some interleaving leads to from an idle group over `world`. -/
def Reachable (service : Service World Req Key Op Reply α) (world : World)
    (group : Group World Req Op Reply α) : Prop :=
  Relation.ReflTransGen service.Step (idle world) group

variable {service : Service World Req Key Op Reply α} {world : World}
  {group : Group World Req Op Reply α}

/-- At most one execution runs for each key. -/
theorem Reachable.keys_distinct (reachable : service.Reachable world group) :
    group.flights.Pairwise (fun one two => service.key one.leader ≠ service.key two.leader) := by
  induction reachable with
  | refl => simp [idle]
  | tail _ step ih =>
    cases step with
    | lead request free =>
      simp only [List.pairwise_append, List.pairwise_singleton, List.mem_singleton, true_and]
      exact ⟨ih, fun flight member other same => by subst same; exact free flight member⟩
    | join request same => simpa [List.pairwise_append, List.pairwise_cons] using ih
    | call step responds => simpa [List.pairwise_append, List.pairwise_cons] using ih
    | unroll step => simpa [List.pairwise_append, List.pairwise_cons] using ih
    | land =>
      exact List.Pairwise.sublist ((List.sublist_cons_self _ _).append_left _) ih
    | interfere outside => exact ih

/-- If every body keeps its contract from the start, so does every execution
of every interleaving, and every returned result satisfies the postcondition. -/
structure Sound (contract : Req → Contract Op Reply) (post : Req → History Op Reply → α → Prop)
    (group : Group World Req Op Reply α) : Prop where
  flights : ∀ flight ∈ group.flights, (contract flight.leader).Obeyed flight.history ∧
    flight.program.Follows (contract flight.leader) flight.history (post flight.leader)
  landings : ∀ landing ∈ group.landings, (contract landing.leader).Obeyed landing.history ∧
    post landing.leader landing.history landing.result

theorem Reachable.sound {contract : Req → Contract Op Reply}
    {post : Req → History Op Reply → α → Prop}
    (follows : ∀ request, (service.body request).Follows (contract request) [] (post request))
    (reachable : service.Reachable world group) : Sound contract post group := by
  induction reachable with
  | refl => exact ⟨by simp [idle], by simp [idle]⟩
  | tail _ step ih =>
    obtain ⟨flights, landings⟩ := ih
    cases step with
    | lead request free =>
      refine ⟨?_, landings⟩
      intro flight member
      rcases List.mem_append.mp member with old | fresh
      · exact flights flight old
      · rw [List.mem_singleton.mp fresh]
        exact ⟨Contract.obeyed_nil _, follows request⟩
    | join request same =>
      simp only [List.forall_mem_append, List.forall_mem_cons] at flights
      exact ⟨by simpa only [List.forall_mem_append, List.forall_mem_cons] using flights, landings⟩
    | call step responds =>
      simp only [List.forall_mem_append, List.forall_mem_cons] at flights
      obtain ⟨before, ⟨obeyed, running⟩, after⟩ := flights
      obtain ⟨allowed, continues⟩ := running.step step
      refine ⟨?_, landings⟩
      simp only [List.forall_mem_append, List.forall_mem_cons]
      exact ⟨before, ⟨obeyed.snoc (allowed _ rfl), continues⟩, after⟩
    | unroll step =>
      simp only [List.forall_mem_append, List.forall_mem_cons] at flights
      obtain ⟨before, ⟨obeyed, running⟩, after⟩ := flights
      refine ⟨?_, landings⟩
      simp only [List.forall_mem_append, List.forall_mem_cons]
      exact ⟨before, ⟨obeyed, by simpa using (running.step step).2⟩, after⟩
    | land =>
      simp only [List.forall_mem_append, List.forall_mem_cons] at flights
      obtain ⟨before, finished, after⟩ := flights
      constructor
      · simp only [List.forall_mem_append]
        exact ⟨before, after⟩
      · simp only [List.forall_mem_append, List.forall_mem_singleton]
        exact ⟨landings, finished⟩
    | interfere outside => exact ⟨flights, landings⟩

/-- A result goes only to callers that asked for the same key. -/
theorem Reachable.callers_key (reachable : service.Reachable world group) :
    (∀ flight ∈ group.flights, ∀ follower ∈ flight.followers,
      service.key flight.leader = service.key follower) ∧
    ∀ landing ∈ group.landings, ∀ caller ∈ landing.callers,
      service.key landing.leader = service.key caller := by
  induction reachable with
  | refl => simp [idle]
  | tail _ step ih =>
    obtain ⟨flights, landings⟩ := ih
    cases step with
    | lead request free =>
      refine ⟨?_, landings⟩
      simp only [List.forall_mem_append, List.forall_mem_singleton]
      exact ⟨flights, by simp⟩
    | join request same =>
      simp only [List.forall_mem_append, List.forall_mem_cons] at flights
      obtain ⟨before, own, after⟩ := flights
      refine ⟨?_, landings⟩
      simp only [List.forall_mem_append, List.forall_mem_cons]
      exact ⟨before, ⟨own, same, by simp⟩, after⟩
    | call _ _ | unroll _ =>
      simp only [List.forall_mem_append, List.forall_mem_cons] at flights
      exact ⟨by simpa only [List.forall_mem_append, List.forall_mem_cons] using flights, landings⟩
    | land =>
      simp only [List.forall_mem_append, List.forall_mem_cons] at flights
      obtain ⟨before, own, after⟩ := flights
      constructor
      · simp only [List.forall_mem_append]
        exact ⟨before, after⟩
      · simp only [List.forall_mem_append, List.forall_mem_singleton]
        exact ⟨landings, List.forall_mem_cons.mpr ⟨rfl, own⟩⟩
    | interfere outside => exact ⟨flights, landings⟩

/-- The service among others that do something else to the world. -/
def among (service : Service World Req Key Op Reply α) (interfere : World → World → Prop) :
    Service World Req Key Op Reply α :=
  { service with interfere }

section images

variable {Other : Type} {image : World → Other} {other : Service Other Req Key Op Reply α}
  {after : Group World Req Op Reply α}

/-- A service that runs the same code and allows all that happens to an image of the world. -/
structure Covers (image : World → Other) (other : Service Other Req Key Op Reply α)
    (service : Service World Req Key Op Reply α) : Prop where
  key : other.key = service.key
  body : other.body = service.body
  respond : ∀ {world op reply later}, service.respond world op reply later →
    other.respond (image world) op reply (image later)
  interfere : ∀ {world later}, service.interfere world later →
    other.interfere (image world) (image later)

theorem Step.inWorld (step : service.Step group after) (covers : Covers image other service) :
    other.Step (group.inWorld image) (after.inWorld image) := by
  cases step with
  | lead request free =>
    simp only [Group.inWorld]
    rw [← covers.body]
    exact .lead request (covers.key ▸ free)
  | join request same => exact .join request (covers.key ▸ same)
  | call step responds => exact .call step (covers.respond responds)
  | unroll step => exact .unroll step
  | land => exact .land
  | interfere outside => exact .interfere (covers.interfere outside)

theorem Reachable.inWorld (reachable : service.Reachable world group)
    (covers : Covers image other service) : other.Reachable (image world) (group.inWorld image) := by
  induction reachable with
  | refl => exact .refl
  | tail _ step ih => exact ih.tail (step.inWorld covers)

end images

theorem Step.among {few many : World → World → Prop} {after : Group World Req Op Reply α}
    (step : (service.among few).Step group after) (more : ∀ world later, few world later →
      many world later) : (service.among many).Step group after := by
  have covers : Covers id (service.among many) (service.among few) := ⟨rfl, rfl, id, more _ _⟩
  exact step.inWorld covers

end Service

end Lspd.Process
