import Lspd.ChannelOpener.RegisterPayment
import Lspd.Rpc.Authorization

/-! The server as a whole: clients register payments by rpc, and the interceptors of all
nodes serve htlcs from the one database the registrations go to. -/

namespace Lspd.ChannelOpener

open Lspd.Common Lspd.Interceptor Lspd.Lightning Lspd.Postgres Lspd.Process Lspd.Rpc Lspd.Store

/-- A node as the rpcs see it: its tokens, and the code that uses its keys and its config. -/
structure RpcNode where
  tokens : List String
  channelOpener : ChannelOpenerServer

/-- A call of `RegisterPayment`, with the time at which its parameters are checked. -/
structure RegisterCall where
  md : Option (List String)
  blob : Bytes
  now : Time

/-- The handler, for the node and the token of its context. -/
def registerHandler (call : RegisterCall) (ctx : Context RpcNode) : Except Status Registration :=
  match getNode ctx with
  | .error status => .error status
  | .ok (node, token) =>
    ({ node.channelOpener with getNode := .ok token }.registration call.now call.blob).mapError
      fun message => ⟨.unknown, message⟩

/-- What a call asks the store for, when it gets there. -/
def received (s : NodesService RpcNode) (call : RegisterCall) : Except Status Registration :=
  unaryInterceptor s call.md (registerHandler call)

/-- The database, the `Intercept` calls on each node, and the rpcs: all that were made, and
the registrations that are about to be stored. -/
structure Server (Index : Type) where
  world : World
  flights : Index → List (Flight InterceptRequest Op Reply InterceptResult)
  landings : Index → List (Landing InterceptRequest Op Reply InterceptResult)
  calls : List RegisterCall
  storing : List Registration

namespace Server

variable {Index : Type}

/-- The calls on one node. -/
def group (server : Server Index) (node : Index) : Calls :=
  ⟨server.world, server.flights node, server.landings node⟩

def setGroup [DecidableEq Index] (server : Server Index) (node : Index) (group : Calls) : Server Index :=
  { server with
    world := group.world
    flights := Function.update server.flights node group.flights
    landings := Function.update server.landings node group.landings }

section steps

variable (sha256 : Bytes → Bytes) (interceptors : Index → Interceptor) (s : NodesService RpcNode)

/-- The handler of one node, when nothing else happens. -/
def handler (node : Index) : Service World InterceptRequest String Op Reply InterceptResult :=
  (service sha256 (interceptors node)).among fun _ _ => False

/-- A step of the server. A statement may fail and leave its registration unstored, and a
restart forgets everything but the database. -/
inductive Step [DecidableEq Index] (server : Server Index) : Server Index → Prop
  | intercept (node : Index) (after : Calls)
      (step : (handler sha256 interceptors node).Step (server.group node) after) :
      Step server (server.setGroup node after)
  | accept (call : RegisterCall) (registration : Registration)
      (accepted : received s call = .ok registration) :
      Step server { server with
        calls := server.calls ++ [call], storing := server.storing ++ [registration] }
  | refuse (call : RegisterCall) (status : Status) (refused : received s call = .error status) :
      Step server { server with calls := server.calls ++ [call] }
  | store (earlier later : List Registration) (registration : Registration) (payments : Payments)
      (pending : server.storing = earlier ++ registration :: later)
      (inserted : Postgres.registerPayment server.world.payments registration = some payments) :
      Step server { server with
        world := { server.world with payments }, storing := earlier ++ later }
  | fail (earlier later : List Registration) (registration : Registration)
      (pending : server.storing = earlier ++ registration :: later) :
      Step server { server with storing := earlier ++ later }
  | sync (channels : Channels) :
      Step server { server with world := { server.world with channels } }
  | restart : Step server { server with
      flights := fun _ => [], landings := fun _ => [], storing := [] }

/-- A server that is started for the first time. -/
structure New (server : Server Index) : Prop where
  payments : server.world.payments.rows = []
  idle : ∀ node, server.flights node = [] ∧ server.landings node = []
  calls : server.calls = []
  storing : server.storing = []

/-- The states some run of a new server goes through. -/
def Reachable [DecidableEq Index] (server : Server Index) : Prop :=
  ∃ new, New new ∧ Relation.ReflTransGen (Step sha256 interceptors s) new server

end steps

section backed

variable {sha256 : Bytes → Bytes} {interceptors : Index → Interceptor} {s : NodesService RpcNode}
  {server later : Server Index}

/-- A call that was made asked for a registration. -/
def Asked (s : NodesService RpcNode) (server : Server Index) (registration : Registration) : Prop :=
  ∃ call ∈ server.calls, received s call = .ok registration

/-- The columns of the row that are never changed were filled by a call that was made. -/
def Backed (s : NodesService RpcNode) (server : Server Index) (row : PaymentRow) : Prop :=
  ∃ registration, Asked s server registration ∧ registration.row = some row.registration

/-- All that the nodes work on was registered by rpc. -/
structure Sound (sha256 : Bytes → Bytes) (interceptors : Index → Interceptor)
    (s : NodesService RpcNode) (server : Server Index) : Prop where
  storing : ∀ registration ∈ server.storing, Asked s server registration
  rows : ∀ row ∈ server.world.payments.rows, Backed s server row
  reads : ∀ node, ∀ call ∈ (server.group node).executions, ∀ info, info? call.history = some info →
    info.paymentSecret.isSome → ∃ row, row.Matches sha256 call.leader.paymentHash ∧
      row.info = .value info ∧ Backed s server row
  runs : ∀ node, ∃ world, ((service sha256 (interceptors node)).among fun _ _ => True).Reachable
    world (server.group node)

theorem Asked.more {registration : Registration} (asked : Asked s server registration)
    (calls : server.calls ⊆ later.calls) : Asked s later registration := by
  obtain ⟨call, made, accepted⟩ := asked
  exact ⟨call, calls made, accepted⟩

theorem Backed.more {row : PaymentRow} (backed : Backed s server row)
    (calls : server.calls ⊆ later.calls) : Backed s later row := by
  obtain ⟨registration, asked, same⟩ := backed
  exact ⟨registration, asked.more calls, same⟩

theorem Sound.new (new : New server) : Sound sha256 interceptors s server := by
  obtain ⟨payments, idle, calls, storing⟩ := new
  have group (node : Index) : server.group node = Service.idle server.world := by
    rw [Server.group, (idle node).1, (idle node).2]
    rfl
  refine ⟨?_, ?_, ?_, ?_⟩
  · rw [storing]
    nofun
  · rw [payments]
    nofun
  · intro node call member
    rw [group] at member
    cases member
  · intro node
    exact ⟨server.world, group node ▸ .refl⟩

/-- What happens outside of the interceptors. -/
theorem Sound.outside (sound : Sound sha256 interceptors s server)
    (calls : server.calls ⊆ later.calls) (flights : later.flights = server.flights)
    (landings : later.landings = server.landings)
    (storing : ∀ registration ∈ later.storing, Asked s later registration)
    (rows : ∀ row ∈ later.world.payments.rows, Backed s later row) :
    Sound sha256 interceptors s later := by
  have group (node : Index) : later.group node =
      ⟨later.world, (server.group node).flights, (server.group node).landings⟩ := by
    rw [Server.group, flights, landings]
    rfl
  refine ⟨storing, rows, ?_, ?_⟩
  · intro node call member info read registered
    rw [group] at member
    obtain ⟨row, found, same, backed⟩ := sound.reads node call member info read registered
    exact ⟨row, found, same, backed.more calls⟩
  · intro node
    obtain ⟨world, run⟩ := sound.runs node
    rw [group]
    exact ⟨world, run.tail (.interfere trivial)⟩

theorem registration_of_mem_setFundingTx {payments : Payments} {paymentHash : Bytes}
    {channelPoint : OutPoint} {row : PaymentRow}
    (member : row ∈ (setFundingTx payments paymentHash channelPoint).rows) :
    ∃ old ∈ payments.rows, old.registration = row.registration := by
  obtain ⟨old, among, rfl⟩ := Table.mem_modify.mp member
  refine ⟨old, among, ?_⟩
  split <;> rfl

/-- What a registration must have to be stored, and the row it becomes. -/
theorem row_eq_some {registration : Registration} {row : PaymentRow}
    (made : registration.row = some row) :
    row.registration = row ∧ registration.paymentHash = some row.paymentHash ∧
      registration.paymentSecret = some row.paymentSecret ∧
      registration.destination = some row.destination ∧
      registration.incomingAmountMsat = row.incomingAmountMsat ∧
      registration.outgoingAmountMsat = row.outgoingAmountMsat ∧
      ∃ params, registration.params = some params ∧
        row.openingFeeParams = .object ⟨registration.token, params⟩ := by
  unfold Registration.row at made
  split at made
  · rename_i params destination paymentHash paymentSecret given peer hash secret
    cases made
    exact ⟨rfl, hash, secret, peer, rfl, rfl, params, given, rfl⟩
  · cases made

/-- An interceptor changes no column that a registration fills. -/
theorem rows_of_effect {node : Index} {group after : Calls}
    (effect : (handler sha256 interceptors node).Effect group after) {row : PaymentRow}
    (member : row ∈ after.world.payments.rows) :
    ∃ old ∈ group.world.payments.rows, old.registration = row.registration := by
  cases effect with
  | quiet fresh world _ _ _ => exact ⟨row, world ▸ member, rfl⟩
  | outside interferes _ _ => exact interferes.elim
  | event _ _ _ _ happened responds _ _ _ =>
    rcases respond_payments responds with same | ⟨hash, channelPoint, _, written⟩
    · exact ⟨row, same ▸ member, rfl⟩
    · exact registration_of_mem_setFundingTx (written ▸ member)

theorem Sound.obeyed (sound : Sound sha256 interceptors s server) (node : Index) :
    Service.Sound (contract (interceptors node)) (Settled (interceptors node)) (server.group node) := by
  obtain ⟨world, run⟩ := sound.runs node
  exact Service.Reachable.sound (intercept_follows (interceptors node)) run

variable {node : Index} {after : Calls}

/-- The payment a call on the node works on, when it has read one. -/
theorem Sound.step_reads (sound : Sound sha256 interceptors s server)
    (effect : (handler sha256 interceptors node).Effect (server.group node) after)
    (obeyed : ∀ call ∈ after.executions,
      (contract (interceptors node) call.leader).Obeyed call.history) :
    ∀ call ∈ after.executions, ∀ info, info? call.history = some info →
      info.paymentSecret.isSome → ∃ row, row.Matches sha256 call.leader.paymentHash ∧
        row.info = .value info ∧ Backed s server row := by
  intro call member info read registered
  rcases effect.origin member with old | begun | ⟨history, event, extends_, running, responds⟩
  · exact sound.reads node call old info read registered
  · simp [begun, info?] at read
  · have keeps := obeyed call member
    rw [extends_] at read keeps
    rcases info?_snoc read with earlier | ⟨rfl, hash, rfl⟩
    · exact sound.reads node _ ((server.group node).running_subset running) info earlier registered
    · obtain ⟨_, same⟩ := allowed_of_obeyed_snoc keeps
      obtain ⟨row, present, found, info_eq⟩ := responds.2.registered registered
      exact ⟨row, same ▸ found, info_eq, sound.rows row present⟩

section intercept

variable [DecidableEq Index]

theorem group_setGroup_self (server : Server Index) (node : Index) (after : Calls) :
    (server.setGroup node after).group node = after := by
  simp [group, setGroup]

theorem group_setGroup_of_ne (server : Server Index) {other : Index} (different : other ≠ node)
    (after : Calls) : (server.setGroup node after).group other =
      ⟨after.world, (server.group other).flights, (server.group other).landings⟩ := by
  simp [group, setGroup, different]

theorem Sound.intercept (sound : Sound sha256 interceptors s server)
    (step : (handler sha256 interceptors node).Step (server.group node) after) :
    Sound sha256 interceptors s (server.setGroup node after) := by
  have runs : ∀ other, ∃ world, ((service sha256 (interceptors other)).among
      fun _ _ => True).Reachable world ((server.setGroup node after).group other) := by
    intro other
    obtain ⟨world, run⟩ := sound.runs other
    by_cases here : other = node
    · subst here
      rw [group_setGroup_self]
      exact ⟨world, run.tail (step.among fun _ _ => False.elim)⟩
    · rw [group_setGroup_of_ne server here]
      exact ⟨world, run.tail (.interfere trivial)⟩
  refine ⟨sound.storing, ?_, ?_, runs⟩
  · intro row member
    obtain ⟨old, among, same⟩ := rows_of_effect step.effect member
    obtain ⟨registration, asked, stored⟩ := sound.rows old among
    exact ⟨registration, asked, same ▸ stored⟩
  · intro other
    by_cases here : other = node
    · subst here
      obtain ⟨world, run⟩ := runs other
      have obeyed := (Service.Reachable.sound (intercept_follows (interceptors other)) run).obeyed
      rw [group_setGroup_self] at obeyed ⊢
      exact sound.step_reads step.effect obeyed
    · rw [group_setGroup_of_ne server here]
      exact sound.reads other

theorem Sound.step (sound : Sound sha256 interceptors s server)
    (step : Step sha256 interceptors s server later) : Sound sha256 interceptors s later := by
  cases step with
  | intercept node after step => exact sound.intercept step
  | accept call registration accepted =>
    have calls : server.calls ⊆ server.calls ++ [call] := List.subset_append_left _ _
    refine sound.outside calls rfl rfl ?_ fun row member => (sound.rows row member).more calls
    intro other member
    rcases List.mem_append.mp member with old | new
    · exact (sound.storing other old).more calls
    · obtain rfl := List.mem_singleton.mp new
      exact ⟨call, List.mem_append_right _ (List.mem_singleton_self call), accepted⟩
  | refuse call status refused =>
    have calls : server.calls ⊆ server.calls ++ [call] := List.subset_append_left _ _
    exact sound.outside calls rfl rfl (fun other member => (sound.storing other member).more calls)
      fun row member => (sound.rows row member).more calls
  | store earlier rest registration payments pending inserted =>
    have asked : ∀ other ∈ earlier ++ registration :: rest, Asked s server other :=
      pending ▸ sound.storing
    refine sound.outside (List.Subset.refl _) rfl rfl ?_ ?_
    · intro other member
      exact asked other ((List.sublist_cons_self _ _).append_left _ |>.subset member)
    · intro row member
      obtain ⟨new, made, rfl⟩ := Option.map_eq_some_iff.mp inserted
      rcases Table.mem_of_mem_insertNew member with old | rfl
      · exact sound.rows row old
      · exact ⟨registration, asked registration (by simp), (row_eq_some made).1.symm ▸ made⟩
  | fail earlier rest registration pending =>
    have asked : ∀ other ∈ earlier ++ registration :: rest, Asked s server other :=
      pending ▸ sound.storing
    refine sound.outside (List.Subset.refl _) rfl rfl ?_ sound.rows
    intro other member
    exact asked other ((List.sublist_cons_self _ _).append_left _ |>.subset member)
  | sync channels => exact sound.outside (List.Subset.refl _) rfl rfl sound.storing sound.rows
  | restart => exact ⟨nofun, sound.rows, fun _ => nofun, fun _ => ⟨server.world, .refl⟩⟩

theorem sound_of_reachable (reachable : Reachable sha256 interceptors s server) :
    Sound sha256 interceptors s server := by
  obtain ⟨new, fresh, run⟩ := reachable
  induction run with
  | refl => exact .new fresh
  | tail _ step ih => exact ih.step step

end intercept

end backed

section registered

variable {s : NodesService RpcNode} {nodes : List RpcNode}

/-- The rpc that a row comes from. Its caller had a token of the node, and the fee of the
parameters in force, which are the caller's if the node has promised them, is left after the
amount to forward. -/
structure RegisteredBy (nodes : List RpcNode) (call : RegisterCall) (node : RpcNode)
    (token : String) (params : RpcOpeningFeeParams) (row : PaymentRow) : Prop where
  authorized : ∃ auths, call.md = some auths ∧ Authorized RpcNode.tokens nodes auths node token
  sent : ∃ data pi, node.channelOpener.decrypt call.blob = .ok data ∧
    node.channelOpener.unmarshal data = .ok pi ∧ pi.paymentHash = some row.paymentHash ∧
    pi.paymentSecret = some row.paymentSecret ∧ pi.destination = some row.destination ∧
    pi.incomingAmountMsat = row.incomingAmountMsat ∧
    pi.outgoingAmountMsat = row.outgoingAmountMsat ∧
    node.channelOpener.openingFeeParams call.now pi.openingFeeParams = .ok params
  stored : row.openingFeeParams = .object ⟨token, params.toCommon⟩
  charged : checkPayment params row.incomingAmountMsat row.outgoingAmountMsat = .ok ()

theorem eq_ok_of_mapError {Value Message Other : Type} {value : Except Message Value}
    {change : Message → Other} {result : Value} (accepted : value.mapError change = .ok result) :
    value = .ok result := by
  cases value with
  | error message => cases accepted
  | ok value => rw [Except.ok.inj accepted]

theorem authorized_of_received (made : newNodesService RpcNode.tokens nodes = .ok s)
    {call : RegisterCall} {registration : Registration} (accepted : received s call = .ok registration) :
    ∃ auths node token, call.md = some auths ∧ Authorized RpcNode.tokens nodes auths node token ∧
      ChannelOpenerServer.registration { node.channelOpener with getNode := .ok token } call.now
        call.blob = .ok registration := by
  unfold received unaryInterceptor at accepted
  split at accepted
  · rename_i node token found
    obtain ⟨auths, md, found⟩ := Option.bind_eq_some_iff.mp found
    exact ⟨auths, node, token, md, authorized_of_authorize made found, eq_ok_of_mapError accepted⟩
  · cases accepted

/-- All that an accepted call has been checked for. -/
theorem registration_eq_ok {server : ChannelOpenerServer} {now : Time} {blob : Bytes}
    {registration : Registration} (accepted : server.registration now blob = .ok registration) :
    ∃ token data pi params, server.getNode = .ok token ∧ server.decrypt blob = .ok data ∧
      server.unmarshal data = .ok pi ∧
      server.openingFeeParams now pi.openingFeeParams = .ok params ∧
      checkPayment params pi.incomingAmountMsat pi.outgoingAmountMsat = .ok () ∧
      registration = ⟨token, some params.toCommon, pi.destination, pi.paymentHash, pi.paymentSecret,
        pi.incomingAmountMsat, pi.outgoingAmountMsat, pi.tag⟩ := by
  unfold ChannelOpenerServer.registration at accepted
  obtain ⟨token, known, accepted⟩ := eq_ok_of_bind accepted
  obtain ⟨data, decrypted, accepted⟩ := eq_ok_of_bind accepted
  obtain ⟨pi, decoded, accepted⟩ := eq_ok_of_bind accepted
  -- the two checks of the tag
  dsimp only at accepted
  split at accepted
  · cases accepted
  · split at accepted
    · cases accepted
    · obtain ⟨params, inForce, accepted⟩ := eq_ok_of_bind accepted
      obtain ⟨_, charged, accepted⟩ := eq_ok_of_bind accepted
      exact ⟨token, data, pi, params, known, decrypted, eq_ok_of_mapError decoded, inForce,
        eq_ok_of_mapError charged, (Except.ok.inj accepted).symm⟩

theorem registeredBy_of_received (made : newNodesService RpcNode.tokens nodes = .ok s)
    {call : RegisterCall} {registration : Registration} {row : PaymentRow}
    (accepted : received s call = .ok registration) (stored : registration.row = some row) :
    ∃ node token params, RegisteredBy nodes call node token params row := by
  obtain ⟨auths, node, token, md, authorized, accepted⟩ := authorized_of_received made accepted
  obtain ⟨_, data, pi, params, known, decrypted, decoded, inForce, charged, rfl⟩ :=
    registration_eq_ok accepted
  obtain rfl := Except.ok.inj known
  obtain ⟨_, hash, secret, destination, incoming, outgoing, given, same, object⟩ := row_eq_some stored
  obtain rfl := Option.some.inj same
  exact ⟨node, token, params, ⟨auths, md, authorized⟩,
    ⟨data, pi, decrypted, decoded, hash, secret, destination, incoming, outgoing, inForce⟩, object,
    incoming ▸ outgoing ▸ charged⟩

end registered

section sample

def sampleRpcNode : RpcNode := ⟨["token"], honestServer⟩

def sampleRegister : RegisterCall := ⟨some ["Basic", "Bearer token"], sampleBlob, sampleScene.now⟩

def newServer : Server Unit := ⟨⟨.empty, .empty, []⟩, fun _ => [], fun _ => [], [], []⟩

theorem exists_nodesService :
    ∃ s, newNodesService RpcNode.tokens [sampleRpcNode] = .ok s :=
  newNodesService_isOk_iff.mpr (by decide)

theorem sample_received {s : NodesService RpcNode}
    (made : newNodesService RpcNode.tokens [sampleRpcNode] = .ok s) :
    received s sampleRegister = registerHandler sampleRegister (withNode sampleRpcNode "token") := by
  have known : s.getNode "token" = .ok sampleRpcNode :=
    (getNode_eq_ok_iff made).mpr ⟨List.mem_singleton_self _, List.mem_singleton_self _⟩
  have other : ¬ ∃ token, "Basic" = "Bearer " ++ token := by
    rintro ⟨token, same⟩
    have lists := congrArg String.toList same
    rw [bearer_append] at lists
    cases lists
  have found : authorize s ["Basic", "Bearer " ++ "token"] = some (sampleRpcNode, "token") := by
    rw [authorize_other other, authorize_bearer, known]
  have words : "Bearer token" = "Bearer " ++ "token" := rfl
  rw [received, unaryInterceptor, sampleRegister, words, Option.bind_some, found]

/-- The registration that the sample call asks for. -/
def sampleRegistration : Registration :=
  match registerHandler sampleRegister (withNode sampleRpcNode "token") with
  | .ok registration => registration
  | .error _ => ⟨"", none, none, none, none, 0, 0, ""⟩

def askingServer : Server Unit :=
  ⟨newServer.world, fun _ => [], fun _ => [], [sampleRegister], [sampleRegistration]⟩

def registeredServer : Server Unit :=
  ⟨registeredWorld honestServer, fun _ => [], fun _ => [], [sampleRegister], []⟩

/-- The calls on a node while nothing else happens. -/
theorem reaches_intercept {sha256 : Bytes → Bytes} {interceptors : Index → Interceptor}
    {s : NodesService RpcNode} [DecidableEq Index] (server : Server Index) (node : Index)
    {after : Calls}
    (run : Relation.ReflTransGen (handler sha256 interceptors node).Step (server.group node) after) :
    Relation.ReflTransGen (Step sha256 interceptors s) server (server.setGroup node after) := by
  induction run with
  | refl =>
    have same : server.setGroup node (server.group node) = server := by
      simp [setGroup, group]
    rw [same]
  | @tail middle after _ step ih =>
    have again : (server.setGroup node middle).setGroup node after = server.setGroup node after := by
      simp [setGroup]
    rw [← again]
    exact ih.tail (.intercept node after (by rwa [group_setGroup_self]))

end sample

section results

variable {sha256 : Bytes → Bytes} {interceptors : Index → Interceptor} {s : NodesService RpcNode}
  {nodes : List RpcNode} {server : Server Index}

/-- The payment was registered by an rpc that was made. -/
def Registered (nodes : List RpcNode) (server : Server Index) (row : PaymentRow) : Prop :=
  ∃ call ∈ server.calls, ∃ node token params, RegisteredBy nodes call node token params row

/-- The row that a call has read, without the columns that are filled later. -/
theorem Sound.registered (sound : Sound sha256 interceptors s server)
    (made : newNodesService RpcNode.tokens nodes = .ok s) {node : Index} {execution : Call}
    (member : execution ∈ (server.group node).executions) {info : PaymentInfo}
    (read : info? execution.history = some info) (secret : info.paymentSecret.isSome) :
    ∃ row, Registered nodes server row ∧ row.Matches sha256 execution.leader.paymentHash ∧
      info.paymentHash = row.paymentHash ∧ info.paymentSecret = some row.paymentSecret ∧
      info.destination = row.destination ∧ info.incomingAmountMsat = row.incomingAmountMsat ∧
      info.outgoingAmountMsat = row.outgoingAmountMsat := by
  obtain ⟨row, found, same, registration, ⟨call, called, accepted⟩, stored⟩ :=
    sound.reads node execution member info read secret
  obtain ⟨hash, own, destination, incoming, outgoing, _⟩ := PaymentRow.info_fields same
  have registered := registeredBy_of_received made accepted stored
  exact ⟨row.registration, ⟨call, called, registered⟩, found, hash, own, destination, incoming,
    outgoing⟩

theorem Sound.callers_hash (sound : Sound sha256 interceptors s server) {node : Index}
    {landing : Landing InterceptRequest Op Reply InterceptResult}
    (member : landing ∈ server.landings node) {req : InterceptRequest}
    (caller : req ∈ landing.callers) : landing.leader.paymentHash = req.paymentHash := by
  obtain ⟨world, run⟩ := sound.runs node
  exact encodeToString_inj ((Service.Reachable.callers_key run).2 landing member req caller)

/-- In every run of the server with all its nodes, whichever of them serves an htlc: when
`Intercept` forwards it, or opens a channel for it, the payment was registered by an rpc made
before, by a caller with the token of a node and with the fee left for the lsp. What is
forwarded and opened is what that rpc asked for. -/
theorem served_as_registered [DecidableEq Index]
    (made : newNodesService RpcNode.tokens nodes = .ok s)
    (reachable : Reachable sha256 interceptors s server) (node : Index) :
    (∀ landing ∈ server.landings node, landing.result.action = .resumeWithOnion →
      ∀ req ∈ landing.callers, ∃ row, Registered nodes server row ∧
        row.Matches sha256 req.paymentHash ∧
        landing.result.destination = row.destination ∧
        landing.result.paymentSecret = some row.paymentSecret ∧
        landing.result.totalAmountMsat = row.outgoingAmountMsat.toUInt64) ∧
    ∀ execution ∈ (server.group node).executions, ∀ request reply,
      ⟨.openChannel request, reply⟩ ∈ execution.history →
        ∃ row fee, Registered nodes server row ∧
          row.paymentHash = execution.leader.paymentHash ∧
          request = (interceptors node).openChannelRequest row.destination row.incomingAmountMsat
            fee := by
  have sound := sound_of_reachable reachable
  have obeyed := sound.obeyed node
  constructor
  · intro landing member onion req caller
    obtain ⟨info, channelPoint, amt, scid, htlc, stored, resumed⟩ :=
      (obeyed.landings landing member).2.resumed onion
    have finished : landing.execution ∈ (server.group node).executions :=
      (server.group node).finished_subset (List.mem_map_of_mem member)
    obtain ⟨row, registered, found, _, secret, destination, _, outgoing⟩ :=
      sound.registered made finished resumed.vetted.read resumed.vetted.registered
    refine ⟨row, registered, sound.callers_hash member caller ▸ found, ?_⟩
    rw [resumed.result_eq, ← destination, ← secret, ← outgoing]
    exact ⟨rfl, rfl, rfl⟩
  · intro execution member request reply happened
    obtain ⟨earlier, later, history⟩ := List.append_of_mem happened
    obtain ⟨_, info, params, validUntil, now, justified⟩ :=
      obeyed.obeyed execution member earlier _ later history
    have read : info? execution.history = some info := by
      rw [history]
      exact info?_append _ justified.vetted.read
    obtain ⟨row, registered, _, hash, _, destination, incoming, _⟩ :=
      sound.registered made member read justified.vetted.registered
    obtain ⟨fee, request_eq⟩ := justified.request
    refine ⟨row, fee, registered, ?_, ?_⟩
    · rw [← hash, justified.vetted.probe justified.unfunded]
    · rw [request_eq, destination, incoming]

/-- The sample payment is registered by a client, and its first part is forwarded. -/
theorem served_as_registered_sample :
    ∃ (s : NodesService RpcNode) (server : Server Unit),
      newNodesService RpcNode.tokens [sampleRpcNode] = .ok s ∧
      Reachable sampleSha256 (fun _ => sampleInterceptor) s server ∧
      ∃ landing ∈ server.landings (), landing.result = sampleResult 49000000 ∧
        ∃ row, Registered [sampleRpcNode] server row ∧ row.Matches sampleSha256 sampleHash := by
  obtain ⟨s, made⟩ := exists_nodesService
  have accepted : received s sampleRegister = .ok sampleRegistration := (sample_received made).trans rfl
  have accept : Step sampleSha256 (fun _ => sampleInterceptor) s newServer askingServer :=
    .accept sampleRegister sampleRegistration accepted
  have store : Step sampleSha256 (fun _ => sampleInterceptor) s askingServer registeredServer :=
    .store [] [] sampleRegistration (registeredWorld honestServer).payments rfl rfl
  have idle : (handler sampleSha256 (fun _ : Unit => sampleInterceptor) ()).Reachable
      (registeredWorld honestServer) ⟨registeredWorld honestServer, [], []⟩ := .refl
  have finishes : (sampleRun sampleScene (registeredWorld honestServer)
    (samplePart 50000000 51000000)).program = .done (sampleResult 49000000) := rfl
  have served := idle.serve (sampleScene.answer_responds sampleSha256)
    (samplePart 50000000 51000000) [] (by simp) 20 finishes
  have run := ((Relation.ReflTransGen.single accept).tail store).trans
    (reaches_intercept registeredServer () served)
  have new : New newServer := ⟨rfl, fun _ => ⟨rfl, rfl⟩, rfl, rfl⟩
  have reachable : Reachable sampleSha256 (fun _ => sampleInterceptor) s _ := ⟨newServer, new, run⟩
  have forwarded := (served_as_registered made reachable ()).1 _ (List.mem_singleton_self _) rfl
    (samplePart 50000000 51000000) (List.mem_singleton_self _)
  obtain ⟨row, registered, found, _⟩ := forwarded
  exact ⟨s, _, made, reachable, _, List.mem_singleton_self _, rfl, row, registered, found⟩

end results

end Server

end Lspd.ChannelOpener
