import Lspd.Store.Table

/-! Which node an rpc is served by. Every rpc goes through an interceptor that looks up
the node of a bearer token, and the handlers read the node from the context. -/

namespace Lspd.Rpc

open Lspd.Store

variable {Node Reply : Type}

/-- `strings.Replace(s, old, new, 1)`. -/
def replaceOnce (old new : List Char) : List Char → List Char
  | [] => if old = [] then new else []
  | first :: rest =>
    if old.isPrefixOf (first :: rest) then new ++ (first :: rest).drop old.length
    else first :: replaceOnce old new rest

/-- The map of a `nodesService`: one node for each token. -/
abbrev NodeLookup (Node : Type) := Table (String × Node) Prod.fst

structure NodesService (Node : Type) where
  nodes : List Node
  nodeLookup : NodeLookup Node

def addToken (nodeLookup : NodeLookup Node) (entry : String × Node) :
    Except String (NodeLookup Node) :=
  if (nodeLookup.find? entry.1).isSome then .error "cannot have multiple nodes with the same token"
  else .ok (nodeLookup.insertNew entry)

/-- The tokens of all nodes, in the order of the two loops. -/
def tokenEntries (tokens : Node → List String) (nodes : List Node) : List (String × Node) :=
  nodes.flatMap fun node => (tokens node).map fun token => (token, node)

def newNodesService (tokens : Node → List String) (nodes : List Node) :
    Except String (NodesService Node) := do
  let nodeLookup ← (tokenEntries tokens nodes).foldlM addToken .empty
  return { nodes, nodeLookup }

def NodesService.getNode (s : NodesService Node) (token : String) : Except String Node :=
  match s.nodeLookup.find? token with
  | none => .error "node not found"
  | some entry => .ok entry.2

inductive Code where
  | permissionDenied
  | unknown
  deriving DecidableEq

structure Status where
  code : Code
  message : String
  deriving DecidableEq

def notAuthorized : Status := ⟨.permissionDenied, "Not authorized"⟩

/-- What a context holds under the key of the node. -/
abbrev Context (Node : Type) := Option (Node × String)

def withNode (node : Node) (token : String) : Context Node := some (node, token)

def getNode (ctx : Context Node) : Except Status (Node × String) :=
  match ctx with
  | none => .error notAuthorized
  | some nodeContext => .ok nodeContext

def bearer : List Char := "Bearer ".toList

/-- The node of the first header with a known token. -/
def authorize (s : NodesService Node) : List String → Option (Node × String)
  | [] => none
  | auth :: rest =>
    if ¬ bearer.isPrefixOf auth.toList then authorize s rest
    else
      let token := String.ofList (replaceOnce bearer [] auth.toList)
      match s.getNode token with
      | .error _ => authorize s rest
      | .ok node => some (node, token)

/-- The interceptor of the grpc server, over the authorization headers of a request. A
request without metadata has none. -/
def unaryInterceptor (s : NodesService Node) (md : Option (List String))
    (handler : Context Node → Except Status Reply) : Except Status Reply :=
  match md.bind (authorize s) with
  | some (node, token) => handler (withNode node token)
  | none => .error notAuthorized

section lookup

variable {tokens : Node → List String} {nodes : List Node} {s : NodesService Node}
  {token : String} {node : Node}

/-- A token is added exactly when it is new. -/
theorem addToken_eq_ok_iff {nodeLookup after : NodeLookup Node} {entry : String × Node} :
    addToken nodeLookup entry = .ok after ↔ after.rows = nodeLookup.rows ++ [entry] := by
  unfold addToken
  constructor
  · intro added
    split_ifs at added with taken
    have vacant := Table.find?_eq_none_iff.mp (Option.not_isSome_iff_eq_none.mp taken)
    rw [← Except.ok.inj added, Table.rows_insertNew vacant]
  · intro rows
    have unique := rows ▸ after.unique
    have vacant : ∀ other ∈ nodeLookup.rows, other.1 ≠ entry.1 := fun other member =>
      (List.pairwise_append.mp unique).2.2 other member entry (List.mem_singleton_self entry)
    rw [if_neg (by simp [Table.find?_eq_none_iff.mpr vacant])]
    exact congrArg Except.ok (Table.eq_of_rows (by rw [Table.rows_insertNew vacant, rows]))

theorem foldlM_addToken_eq_ok_iff {nodeLookup after : NodeLookup Node}
    {entries : List (String × Node)} :
    entries.foldlM addToken nodeLookup = .ok after ↔ after.rows = nodeLookup.rows ++ entries := by
  induction entries generalizing nodeLookup with
  | nil =>
    rw [List.foldlM_nil, List.append_nil]
    constructor
    · intro same
      rw [Except.ok.inj same]
    · intro same
      exact congrArg Except.ok (Table.eq_of_rows same.symm)
  | cons entry entries ih =>
    rw [List.foldlM_cons]
    constructor
    · intro added
      cases first : addToken nodeLookup entry with
      | error message =>
        rw [first] at added
        cases added
      | ok next =>
        rw [first] at added
        rw [ih.mp added, addToken_eq_ok_iff.mp first, List.append_assoc, List.singleton_append]
    · intro rows
      rw [← List.singleton_append, ← List.append_assoc] at rows
      have unique := rows ▸ after.unique
      let next : NodeLookup Node := ⟨nodeLookup.rows ++ [entry], (List.pairwise_append.mp unique).1⟩
      have first : addToken nodeLookup entry = .ok next := addToken_eq_ok_iff.mpr rfl
      rw [first]
      exact ih.mpr rows

theorem nodeLookup_rows (made : newNodesService tokens nodes = .ok s) :
    s.nodeLookup.rows = tokenEntries tokens nodes := by
  unfold newNodesService at made
  cases added : (tokenEntries tokens nodes).foldlM addToken .empty with
  | error message =>
    rw [added] at made
    cases made
  | ok nodeLookup =>
    rw [added] at made
    cases made
    exact foldlM_addToken_eq_ok_iff.mp added

theorem mem_tokenEntries : (token, node) ∈ tokenEntries tokens nodes ↔
    node ∈ nodes ∧ token ∈ tokens node := by
  simp [tokenEntries]

/-- The service is made exactly when no token is given twice. -/
theorem newNodesService_isOk_iff :
    (∃ s, newNodesService tokens nodes = .ok s) ↔ (nodes.flatMap tokens).Nodup := by
  have keys : (tokenEntries tokens nodes).map Prod.fst = nodes.flatMap tokens := by
    simp [tokenEntries, List.map_flatMap, Function.comp_def]
  rw [← keys]
  constructor
  · rintro ⟨s, made⟩
    have unique := s.nodeLookup.unique
    rw [nodeLookup_rows made] at unique
    exact List.pairwise_map.mpr unique
  · intro distinct
    let nodeLookup : NodeLookup Node := ⟨tokenEntries tokens nodes, List.pairwise_map.mp distinct⟩
    have added : (tokenEntries tokens nodes).foldlM addToken .empty = .ok nodeLookup :=
      foldlM_addToken_eq_ok_iff.mpr rfl
    refine ⟨⟨nodes, nodeLookup⟩, ?_⟩
    rw [newNodesService, added]
    rfl

/-- A token leads to the node that it was configured for. -/
theorem getNode_eq_ok_iff (made : newNodesService tokens nodes = .ok s) :
    s.getNode token = .ok node ↔ node ∈ nodes ∧ token ∈ tokens node := by
  rw [← mem_tokenEntries, ← nodeLookup_rows made]
  unfold NodesService.getNode
  constructor
  · intro got
    split at got
    · cases got
    · rename_i entry found
      obtain ⟨member, same⟩ := Table.find?_eq_some_iff.mp found
      obtain rfl := Except.ok.inj got
      exact same ▸ member
  · intro member
    rw [Table.find?_eq_some_iff.mpr ⟨member, rfl⟩]

end lookup

section headers

theorem replaceOnce_append (old new rest : List Char) (nonempty : old ≠ []) :
    replaceOnce old new (old ++ rest) = new ++ rest := by
  cases old with
  | nil => exact absurd rfl nonempty
  | cons first old => simp [replaceOnce]

theorem bearer_append (token : String) : ("Bearer " ++ token).toList = bearer ++ token.toList :=
  String.toList_append

theorem eq_append_of_bearer {auth : String} (starts : bearer.isPrefixOf auth.toList) :
    ∃ token, auth = "Bearer " ++ token := by
  obtain ⟨rest, same⟩ := List.isPrefixOf_iff_prefix.mp starts
  refine ⟨String.ofList rest, String.toList_inj.mp ?_⟩
  rw [bearer_append, String.toList_ofList, same]

variable {s : NodesService Node} {tokens : Node → List String} {nodes : List Node}

/-- What follows the word in a header is looked up, and other headers are passed over. -/
theorem authorize_bearer (token : String) (rest : List String) :
    authorize s (("Bearer " ++ token) :: rest) =
      match s.getNode token with
      | .error _ => authorize s rest
      | .ok node => some (node, token) := by
  have starts : bearer.isPrefixOf ("Bearer " ++ token).toList := by
    rw [bearer_append]
    exact List.isPrefixOf_iff_prefix.mpr (List.prefix_append _ _)
  have token_eq : String.ofList (replaceOnce bearer [] ("Bearer " ++ token).toList) = token := by
    rw [bearer_append, replaceOnce_append bearer [] _ (by decide), List.nil_append,
      String.ofList_toList]
  rw [authorize, if_neg (not_not.mpr starts), token_eq]

theorem authorize_other {auth : String} (other : ¬ ∃ token, auth = "Bearer " ++ token)
    (rest : List String) : authorize s (auth :: rest) = authorize s rest := by
  rw [authorize, if_pos fun starts => other (eq_append_of_bearer starts)]

/-- The header has the token of a configured node. -/
def Names (tokens : Node → List String) (nodes : List Node) (auth : String) (node : Node)
    (token : String) : Prop :=
  auth = "Bearer " ++ token ∧ node ∈ nodes ∧ token ∈ tokens node

theorem authorize_cons (made : newNodesService tokens nodes = .ok s) (auth : String)
    (rest : List String) :
    (∃ node token, Names tokens nodes auth node token ∧
      authorize s (auth :: rest) = some (node, token)) ∨
    (∀ node token, ¬ Names tokens nodes auth node token) ∧
      authorize s (auth :: rest) = authorize s rest := by
  by_cases word : ∃ token, auth = "Bearer " ++ token
  · obtain ⟨token, rfl⟩ := word
    rw [authorize_bearer]
    cases got : s.getNode token with
    | ok node => exact .inl ⟨node, token, ⟨rfl, (getNode_eq_ok_iff made).mp got⟩, rfl⟩
    | error message =>
      refine .inr ⟨?_, rfl⟩
      rintro node other ⟨same, known⟩
      have lists := congrArg String.toList same
      rw [bearer_append, bearer_append] at lists
      obtain rfl := String.toList_inj.mp (List.append_cancel_left lists)
      cases got.symm.trans ((getNode_eq_ok_iff made).mpr known)
  · exact .inr ⟨fun node token named => word ⟨token, named.1⟩, authorize_other word rest⟩

/-- The first header with the token of a node decides. -/
theorem authorize_cases (made : newNodesService tokens nodes = .ok s) (auths : List String) :
    (∃ before auth after node token, auths = before ++ auth :: after ∧
      Names tokens nodes auth node token ∧
      (∀ earlier ∈ before, ∀ node token, ¬ Names tokens nodes earlier node token) ∧
      authorize s auths = some (node, token)) ∨
    (∀ auth ∈ auths, ∀ node token, ¬ Names tokens nodes auth node token) ∧
      authorize s auths = none := by
  induction auths with
  | nil => exact .inr ⟨nofun, rfl⟩
  | cons auth rest ih =>
    rcases authorize_cons made auth rest with ⟨node, token, named, found⟩ | ⟨unnamed, passed⟩
    · exact .inl ⟨[], auth, rest, node, token, rfl, named, nofun, found⟩
    · rw [passed]
      rcases ih with ⟨before, later, after, node, token, split, named, earlier, found⟩ | ⟨none, denied⟩
      · refine .inl ⟨auth :: before, later, after, node, token, by rw [split, List.cons_append], named,
          ?_, found⟩
        exact List.forall_mem_cons.mpr ⟨unnamed, earlier⟩
      · exact .inr ⟨List.forall_mem_cons.mpr ⟨unnamed, none⟩, denied⟩

end headers

section served

variable {s : NodesService Node} {tokens : Node → List String} {nodes : List Node}

/-- The headers a request is served by: the first one with the token of a node is of this
node, and no other node has the token. -/
structure Authorized (tokens : Node → List String) (nodes : List Node) (auths : List String)
    (node : Node) (token : String) : Prop where
  first : ∃ before auth after, auths = before ++ auth :: after ∧
    Names tokens nodes auth node token ∧
    ∀ earlier ∈ before, ∀ node token, ¬ Names tokens nodes earlier node token
  only : ∀ other ∈ nodes, token ∈ tokens other → other = node

theorem authorized_of_authorize (made : newNodesService tokens nodes = .ok s) {auths : List String}
    {node : Node} {token : String} (found : authorize s auths = some (node, token)) :
    Authorized tokens nodes auths node token := by
  rcases authorize_cases made auths with
    ⟨before, auth, after, one, own, split, named, earlier, same⟩ | ⟨_, denied⟩
  · cases found.symm.trans same
    refine ⟨⟨before, auth, after, split, named, earlier⟩, ?_⟩
    intro other member also
    have known := (getNode_eq_ok_iff made).mpr ⟨member, also⟩
    exact Except.ok.inj (known.symm.trans ((getNode_eq_ok_iff made).mpr named.2))
  · cases found.symm.trans denied

/-- The server starts exactly when no token is given twice. A handler is then reached exactly
by the requests that have the token of a node in some header, it gets this node and the
token from its context, and all others are refused. -/
theorem served_as_authorized (Reply : Type) (tokens : Node → List String) (nodes : List Node) :
    ((∃ s, newNodesService tokens nodes = .ok s) ↔ (nodes.flatMap tokens).Nodup) ∧
    ∀ s, newNodesService tokens nodes = .ok s →
      ∀ (md : Option (List String)) (handler : Context Node → Except Status Reply),
        (∃ auths node token ctx, md = some auths ∧ Authorized tokens nodes auths node token ∧
          unaryInterceptor s md handler = handler ctx ∧ getNode ctx = .ok (node, token)) ∨
        (∀ auths, md = some auths → ∀ auth ∈ auths, ∀ node token,
          ¬ Names tokens nodes auth node token) ∧
          unaryInterceptor s md handler = .error notAuthorized := by
  refine ⟨newNodesService_isOk_iff, ?_⟩
  intro s made md handler
  cases md with
  | none => exact .inr ⟨nofun, rfl⟩
  | some auths =>
    rcases authorize_cases made auths with
      ⟨_, _, _, node, token, _, _, _, found⟩ | ⟨none, denied⟩
    · refine .inl ⟨auths, node, token, withNode node token, rfl,
        authorized_of_authorize made found, ?_, rfl⟩
      rw [unaryInterceptor, Option.bind_some, found]
    · refine .inr ⟨?_, ?_⟩
      · rintro _ ⟨⟩
        exact none
      · rw [unaryInterceptor, Option.bind_some, denied]

/-- A request that is served by the second of two nodes. -/
theorem served_as_authorized_sample :
    ∃ s, newNodesService id [["a"], ["b", "c"]] = .ok s ∧
      ∃ node token, token ∈ node ∧
        unaryInterceptor s (some ["Bearer d", "Bearer c"]) getNode = .ok (node, token) := by
  obtain ⟨starts, served⟩ := served_as_authorized (List String × String) id
    [["a"], ["b", "c"]]
  obtain ⟨s, made⟩ := starts.mpr (by decide)
  have known : Names id [["a"], ["b", "c"]] "Bearer c" ["b", "c"] "c" := ⟨rfl, by decide, by decide⟩
  rcases served s made (some ["Bearer d", "Bearer c"]) getNode with
    ⟨auths, node, token, ctx, _, authorized, reached, own⟩ | ⟨none, _⟩
  · obtain ⟨_, _, _, _, named, _⟩ := authorized.first
    exact ⟨s, made, node, token, named.2.2, reached.trans own⟩
  · exact absurd known (none _ rfl _ (by decide) _ _)

end served

end Lspd.Rpc
