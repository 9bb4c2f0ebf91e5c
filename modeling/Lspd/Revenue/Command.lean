import Mathlib.Data.List.FinRange
import Lspd.Revenue.Hops
import Lspd.Revenue.Openings
import Lspd.Revenue.Report
import Lspd.Sorted.InPlace

/-! The `revenue` command: it passes over the forwards of a range of time in two orders to
find their tokens, and adds up what each node earned. -/

namespace Lspd.Revenue

open Lspd.Common Lspd.Lightning Lspd.Process Lspd.Sorted Lspd.Store Std

variable {n : Nat}

/-- The order of `forwardsSortedOut`. -/
def compareOut : RevenueForward → RevenueForward → Ordering :=
  compareLex (compareOn RevenueForward.nodeid) (compareLex (compareOn RevenueForward.peeridOut)
    (compareLex (compareOn RevenueForward.amtMsatOut) (compareOn RevenueForward.resolvedTime)))

/-- A stable sort of a copy of the pointers. -/
def sortOut (forwards : Records n) (forwardsSortedIn : List (Fin n)) : List (Fin n) :=
  forwardsSortedIn.mergeSort fun first second =>
    (compareOut (forwards first) (forwards second)).isLE

/-- The records when all tokens and htlcs are matched. -/
def matchForwards (forwards : Records n) (importedForwards : List ImportedForward)
    (openChannelHtlcs : List OpenChannelHtlc) : Records n :=
  let forwardsSortedIn := List.finRange n
  let forwardsSortedOut := sortOut forwards forwardsSortedIn
  let sent := walkAt sendMove setSendToken forwards forwardsSortedIn importedForwards
  let received := walkAt receiveMove setReceiveToken sent.1 forwardsSortedOut sent.2
  let passed := (fun records =>
    matchInternalForwards records forwardsSortedIn forwardsSortedOut)^[3] received.1
  (walkAt openingMove attachHtlc passed forwardsSortedOut openChannelHtlcs).1

/-- What `revenue` calculates from the forwards and htlcs of the database and the imports.
Against the migrations of the repository the two queries that are to supply the former fail,
since they name columns that no table has. -/
def revenue (forwards : List RevenueForward) (importedForwards : List ImportedForward)
    (openChannelHtlcs : List OpenChannelHtlc) : List NodeRevenue :=
  let matched := matchForwards forwards.get importedForwards openChannelHtlcs
  calculateRevenue ((List.finRange forwards.length).map matched)

section origins

/-- What a forward before this one, on the peer it came from, is told by. -/
def RevenueForward.keyBefore (forward : RevenueForward) : Key :=
  (forward.peeridIn, forward.nodeid, forward.amtMsatIn)

/-- Where the token for the sender of a forward can come from: the database, an export of
the peer, or a forward that is taken for the hop before. -/
inductive SendOrigin (stored : Records n) (imported : List ImportedForward) (token : String) :
    Fin n → Prop
  | stored (position : Fin n) (own : (stored position).sendToken = some token) :
      SendOrigin stored imported token position
  | imported (position : Fin n) (source : ImportedForward) (member : source ∈ imported)
      (direction : source.direction = "send") (key : (stored position).keyIn = source.key)
      (given : source.token = token) : SendOrigin stored imported token position
  | passed (previous position : Fin n) (sender : SendOrigin stored imported token previous)
      (key : (stored previous).keyIn = (stored position).keyBefore) :
      SendOrigin stored imported token position

/-- Where the token for the recipient can come from. Between our own nodes it is the token
of the sender. -/
inductive ReceiveOrigin (stored : Records n) (imported : List ImportedForward) (token : String) :
    Fin n → Prop
  | stored (position : Fin n) (own : (stored position).receiveToken = some token) :
      ReceiveOrigin stored imported token position
  | imported (position : Fin n) (source : ImportedForward) (member : source ∈ imported)
      (direction : source.direction = "receive") (key : (stored position).keyIn = source.key)
      (given : source.token = token) : ReceiveOrigin stored imported token position
  | passed (position : Fin n) (sender : SendOrigin stored imported token position) :
      ReceiveOrigin stored imported token position

variable (stored : Records n) (imported : List ImportedForward)

/-- What the loops do to one record. -/
inductive Gains (position : Fin n) (before : RevenueForward) : RevenueForward → Prop
  | nothing : Gains position before before
  | sender (token : String) (unset : before.sendToken = none)
      (origin : SendOrigin stored imported token position) :
      Gains position before { before with sendToken := some token }
  | recipient (token : String) (unset : before.receiveToken = none)
      (origin : ReceiveOrigin stored imported token position) :
      Gains position before { before with receiveToken := some token }
  | htlc (htlc : OpenChannelHtlc) : Gains position before { before with openChannelHtlc := some htlc }

/-- A forward without what the command looks for. -/
def bare (forward : RevenueForward) : RevenueForward :=
  { forward with sendToken := none, receiveToken := none, openChannelHtlc := none }

/-- No token that was set is lost, and every other one has an origin. -/
structure Traced (forwards : Records n) : Prop where
  same : ∀ position, bare (forwards position) = bare (stored position)
  kept : TokensKept stored forwards
  sent : ∀ position token, (forwards position).sendToken = some token →
    SendOrigin stored imported token position
  received : ∀ position token, (forwards position).receiveToken = some token →
    ReceiveOrigin stored imported token position

theorem TokensKept.refl (forwards : Records n) : TokensKept forwards forwards :=
  ⟨fun _ _ => rfl, fun _ _ => rfl⟩

theorem TokensKept.trans {first forwards later : Records n} (kept : TokensKept first forwards)
    (again : TokensKept forwards later) : TokensKept first later := by
  constructor
  · intro position set
    have same := kept.sendKept position set
    rw [again.sendKept position (same ▸ set), same]
  · intro position set
    have same := kept.receiveKept position set
    rw [again.receiveKept position (same ▸ set), same]

theorem Traced.start : Traced stored imported stored :=
  ⟨fun _ => rfl, .refl stored, fun position _ own => .stored position own,
    fun position _ own => .stored position own⟩

variable {stored imported} {forwards later : Records n}

theorem Traced.keyIn (traced : Traced stored imported forwards) (position : Fin n) :
    (forwards position).keyIn = (stored position).keyIn := by
  have same := congrArg RevenueForward.keyIn (traced.same position)
  exact same

theorem Traced.nodeid (traced : Traced stored imported forwards) (position : Fin n) :
    (forwards position).nodeid = (stored position).nodeid := by
  have same := congrArg RevenueForward.nodeid (traced.same position)
  exact same

theorem Traced.carries (traced : Traced stored imported forwards) {position : Fin n}
    {token : String} (carries : Carries token (stored position)) :
    Carries token (forwards position) := by
  rcases carries with sends | receives
  · exact .inl ((traced.kept.sendKept position (by simp [sends])).trans sends)
  · exact .inr ((traced.kept.receiveKept position (by simp [receives])).trans receives)

theorem Traced.keyBefore (traced : Traced stored imported forwards) (position : Fin n) :
    (forwards position).keyBefore = (stored position).keyBefore := by
  have same := congrArg RevenueForward.keyBefore (traced.same position)
  exact same

section gains

variable {position : Fin n} {before after : RevenueForward} {token : String}

theorem Gains.same (gains : Gains stored imported position before after) :
    bare after = bare before := by
  cases gains <;> rfl

theorem Gains.sendKept (gains : Gains stored imported position before after)
    (set : before.sendToken ≠ none) : after.sendToken = before.sendToken := by
  cases gains with
  | sender token unset origin => exact absurd unset set
  | _ => rfl

theorem Gains.receiveKept (gains : Gains stored imported position before after)
    (set : before.receiveToken ≠ none) : after.receiveToken = before.receiveToken := by
  cases gains with
  | recipient token unset origin => exact absurd unset set
  | _ => rfl

theorem Gains.sent (gains : Gains stored imported position before after)
    (set : after.sendToken = some token) :
    before.sendToken = some token ∨ SendOrigin stored imported token position := by
  cases gains with
  | sender given unset origin => exact .inr (Option.some.inj set ▸ origin)
  | _ => exact .inl set

theorem Gains.received (gains : Gains stored imported position before after)
    (set : after.receiveToken = some token) :
    before.receiveToken = some token ∨ ReceiveOrigin stored imported token position := by
  cases gains with
  | recipient given unset origin => exact .inr (Option.some.inj set ▸ origin)
  | _ => exact .inl set

theorem Gains.givesSender {token : Option String} (unset : before.sendToken = none)
    (origin : ∀ given, token = some given → SendOrigin stored imported given position) :
    Gains stored imported position before { before with sendToken := token } := by
  cases token with
  | none => exact unset ▸ .nothing
  | some given => exact .sender given unset (origin given rfl)

theorem Gains.givesRecipient {token : Option String} (unset : before.receiveToken = none)
    (origin : ∀ given, token = some given → ReceiveOrigin stored imported given position) :
    Gains stored imported position before { before with receiveToken := token } := by
  cases token with
  | none => exact unset ▸ .nothing
  | some given => exact .recipient given unset (origin given rfl)

end gains

/-- One more change of the records. -/
theorem Traced.gain (traced : Traced stored imported forwards)
    (gains : ∀ position, Gains stored imported position (forwards position) (later position)) :
    Traced stored imported later where
  same position := (gains position).same.trans (traced.same position)
  kept := traced.kept.trans
    ⟨fun position => (gains position).sendKept, fun position => (gains position).receiveKept⟩
  sent position token set := by
    rcases (gains position).sent set with before | origin
    · exact traced.sent position token before
    · exact origin
  received position token set := by
    rcases (gains position).received set with before | origin
    · exact traced.received position token before
    · exact origin

theorem Traced.update (traced : Traced stored imported forwards) {position : Fin n}
    {after : RevenueForward} (gains : Gains stored imported position (forwards position) after) :
    Traced stored imported (Function.update forwards position after) := by
  refine traced.gain fun other => ?_
  by_cases here : other = position
  · subst here
    rwa [Function.update_self]
  · rw [Function.update_of_ne here]
    exact .nothing

end origins

section stages

variable {stored forwards : Records n} {imported sources : List ImportedForward}
  {pointers : List (Fin n)}

/-- An import as the loops leave it. -/
def ImportedForward.used (source : ImportedForward) : ImportedForward :=
  { source with isCorrelated := true }

/-- The loops take a token from an import of their direction and of the key at hand. -/
theorem Traced.origin (traced : Traced stored imported forwards)
    (same : sources.map ImportedForward.used = imported.map ImportedForward.used)
    {source : ImportedForward} (member : source ∈ sources) {direction : String}
    {token : RevenueForward → Option String} {position : Fin n}
    (both : tokenMove direction token (forwards position) source = .both) :
    token (forwards position) = none ∧ ∃ old ∈ imported, old.direction = direction ∧
      (stored position).keyIn = old.key ∧ old.token = source.token := by
  have among : source.used ∈ imported.map ImportedForward.used := same ▸ List.mem_map_of_mem member
  obtain ⟨old, member, used⟩ := List.mem_map.mp among
  have sameDirection := congrArg ImportedForward.direction used
  have sameKey := congrArg ImportedForward.key used
  have sameToken := congrArg ImportedForward.token used
  obtain ⟨unset, wanted, _, key⟩ := tokenMove_both both
  refine ⟨unset, old, member, sameDirection.trans wanted, ?_, sameToken⟩
  exact (traced.keyIn position).symm.trans (key.trans sameKey.symm)

theorem Traced.walkAt {Right : Type} {move : RevenueForward → Right → Move}
    {join : RevenueForward → Right → RevenueForward × Right} {rights : List Right}
    (traced : Traced stored imported forwards) (distinct : pointers.Nodup)
    (gains : ∀ position, ∀ right ∈ rights, move (forwards position) right = .both →
      Gains stored imported position (forwards position) (join (forwards position) right).1) :
    Traced stored imported (walkAt move join forwards pointers rights).1 := by
  refine traced.gain fun position => ?_
  rcases walkAt_entry move join forwards rights distinct position with
    left | ⟨right, member, both, joined⟩
  · rw [left]
    exact .nothing
  · rw [joined]
    exact gains position right member both

theorem Traced.matchImportedForwardsSend (traced : Traced stored imported forwards)
    (same : sources.map ImportedForward.used = imported.map ImportedForward.used)
    (distinct : pointers.Nodup) :
    Traced stored imported (Sorted.walkAt sendMove setSendToken forwards pointers sources).1 := by
  refine traced.walkAt distinct fun position source member both => ?_
  obtain ⟨unset, old, among, direction, key, token⟩ := traced.origin same member both
  exact .sender source.token unset (.imported position old among direction key token)

theorem Traced.matchImportedForwardsReceive (traced : Traced stored imported forwards)
    (same : sources.map ImportedForward.used = imported.map ImportedForward.used)
    (distinct : pointers.Nodup) :
    Traced stored imported
      (Sorted.walkAt receiveMove setReceiveToken forwards pointers sources).1 := by
  refine traced.walkAt distinct fun position source member both => ?_
  obtain ⟨unset, old, among, direction, key, token⟩ := traced.origin same member both
  exact .recipient source.token unset (.imported position old among direction key token)

/-- The first of the two assignments gives the sender's token of one forward to the other
one, the second one takes it back as the token of the recipient. -/
theorem Traced.setTokens (traced : Traced stored imported forwards) {inForward outForward : Fin n}
    (move : internalMove (forwards inForward) (forwards outForward) = .both) :
    Traced stored imported (setTokens forwards inForward outForward) := by
  obtain ⟨key, notReceived, notSent⟩ := internalMove_both move
  have hop : (stored outForward).keyIn = (stored inForward).keyBefore := by
    rw [← traced.keyIn, key, ← traced.keyBefore]
    rfl
  have sender : ∀ token, (forwards outForward).sendToken = some token →
      SendOrigin stored imported token outForward := traced.sent outForward
  have first := traced.update (.givesSender notSent fun token set =>
    .passed outForward inForward (sender token set) hop)
  refine first.update (.givesRecipient ?_ ?_)
  · by_cases here : outForward = inForward
    · subst here
      rwa [Function.update_self]
    · rwa [Function.update_of_ne here]
  · intro token set
    rw [Function.update_self] at set
    exact .passed outForward (sender token set)

theorem Traced.matchInternalForwards (traced : Traced stored imported forwards)
    (sortedIn sortedOut : List (Fin n)) (calls : Nat) :
    Traced stored imported ((fun records =>
      Revenue.matchInternalForwards records sortedIn sortedOut)^[calls] forwards) := by
  refine (reachable_calls forwards sortedIn sortedOut calls).induct
    (fun pass => Traced stored imported pass.forwards) ?_ ?_
  · rintro _ rfl
    exact traced
  · intro pass action later _ traced step
    cases action with
    | again =>
      obtain ⟨_, rfl⟩ := step
      exact traced
    | look =>
      rcases look_cases step with same | ⟨inForward, outForward, ins, outs, _, _, move, rfl⟩
      · exact same ▸ traced
      · exact traced.setTokens move

theorem used_setSendToken (forward : RevenueForward) (source : ImportedForward) :
    (setSendToken forward source).2.used = source.used := rfl

theorem sortOut_nodup (forwards : Records n) (distinct : pointers.Nodup) :
    (sortOut forwards pointers).Nodup :=
  (List.mergeSort_perm pointers _).nodup_iff.mpr distinct

/-- Whatever is matched, the records stay what they are, keep their tokens and get others
only with an origin. -/
theorem traced_matchForwards (stored : Records n) (imported : List ImportedForward)
    (htlcs : List OpenChannelHtlc) : Traced stored imported (matchForwards stored imported htlcs) := by
  have distinct := List.nodup_finRange n
  have distinctOut := sortOut_nodup stored distinct
  have used : (walkAt sendMove setSendToken stored (List.finRange n) imported).2.map
      ImportedForward.used = imported.map ImportedForward.used :=
    map_walkAt_snd _ used_setSendToken _ _ _
  have sent := (Traced.start stored imported).matchImportedForwardsSend rfl distinct
  have received := sent.matchImportedForwardsReceive used distinctOut
  have passed := received.matchInternalForwards (List.finRange n) (sortOut stored (List.finRange n)) 3
  exact passed.walkAt distinctOut fun _ htlc _ _ => .htlc htlc

end stages

section report

/-- The report has every node of the database once, with the fees and the number of its
forwards as they are stored. The tokens it names for a node have an origin among the
forwards of that node, and all tokens of the database are named. -/
structure ReportOf (stored : List RevenueForward) (imported : List ImportedForward)
    (nodes : List NodeRevenue) : Prop where
  distinct : (nodes.map NodeRevenue.nodeid).Nodup
  total : ∀ nodeid, nodeid ∈ nodes.map NodeRevenue.nodeid ↔
    ∃ forward ∈ stored, forward.nodeid = nodeid
  fees : ∀ node ∈ nodes,
    node.totalFeesMsat = .ofNat (sumOf feeMsat (forwardsOf node.nodeid stored))
  count : ∀ node ∈ nodes, node.totalForwardCountMsat = .ofNat (forwardsOf node.nodeid stored).length
  traced : ∀ node ∈ nodes, ∀ row ∈ node.tokens.rows, ∃ position,
    (stored.get position).nodeid = node.nodeid ∧
      (SendOrigin stored.get imported row.token position ∨
        ReceiveOrigin stored.get imported row.token position)
  kept : ∀ forward ∈ stored, ∀ token, Carries token forward →
    ∃ node ∈ nodes, node.nodeid = forward.nodeid ∧ ∃ row ∈ node.tokens.rows, row.token = token

theorem sumOf_map_bare (forwards : List RevenueForward) :
    sumOf feeMsat (forwards.map bare) = sumOf feeMsat forwards := by
  rw [sumOf, List.map_map]
  rfl

theorem map_bare_forwardsOf (nodeid : Bytes) (forwards : List RevenueForward) :
    (forwardsOf nodeid forwards).map bare = forwardsOf nodeid (forwards.map bare) := by
  rw [forwardsOf, forwardsOf, List.filter_map]
  rfl

/-- The list that is reported, against the one that was read. -/
theorem Traced.map_bare {stored : List RevenueForward} {imported : List ImportedForward}
    {forwards : Records stored.length} (traced : Traced stored.get imported forwards) :
    ((List.finRange stored.length).map forwards).map bare = stored.map bare := by
  have read : (List.finRange stored.length).map stored.get = stored :=
    List.ofFn_eq_map.symm.trans (List.ofFn_get stored)
  conv_rhs => rw [← read]
  rw [List.map_map, List.map_map]
  exact List.map_congr_left fun position _ => traced.same position

/-- The nodes of the database are in the order of their ids. -/
def SortedByNode (forwards : List RevenueForward) : Prop :=
  forwards.Pairwise fun one two => (Ord.compare one.nodeid two.nodeid).isLE

theorem SortedByNode.of_bare {one two : List RevenueForward} (sorted : SortedByNode one)
    (same : two.map bare = one.map bare) : SortedByNode two := by
  have bared : (one.map bare).Pairwise fun one two => (Ord.compare one.nodeid two.nodeid).isLE :=
    List.pairwise_map.mpr sorted
  rw [← same] at bared
  exact List.pairwise_map.mp bared

section traced

variable {stored : List RevenueForward} {imported : List ImportedForward}
  {forwards : Records stored.length}

theorem Traced.map_bare_forwardsOf (traced : Traced stored.get imported forwards)
    (nodeid : Bytes) :
    (forwardsOf nodeid ((List.finRange stored.length).map forwards)).map bare =
      (forwardsOf nodeid stored).map bare := by
  rw [Revenue.map_bare_forwardsOf, traced.map_bare, Revenue.map_bare_forwardsOf]

theorem Traced.sorted (traced : Traced stored.get imported forwards)
    (sorted : SortedByNode stored) :
    SortedByNode ((List.finRange stored.length).map forwards) :=
  sorted.of_bare traced.map_bare

/-- A forward of the database is listed under its node. -/
theorem Traced.listed (traced : Traced stored.get imported forwards)
    (sorted : SortedByNode stored) (position : Fin stored.length) :
    ∃ node ∈ calculateRevenue ((List.finRange stored.length).map forwards),
      node.nodeid = (stored.get position).nodeid := by
  have among := List.mem_map_of_mem (f := forwards) (List.mem_finRange position)
  have grouped := calculateRevenue_grouped (traced.sorted sorted)
  obtain ⟨node, member, equal⟩ := List.mem_map.mp (grouped.total _ among)
  exact ⟨node, member, equal.trans (traced.nodeid position)⟩

/-- The row of a token comes from a forward of the node that carries the token. -/
theorem Traced.row_traced (traced : Traced stored.get imported forwards)
    (sorted : SortedByNode stored) {node : NodeRevenue}
    (member : node ∈ calculateRevenue ((List.finRange stored.length).map forwards))
    {row : TokenRevenue} (among : row ∈ node.tokens.rows) :
    ∃ position, (stored.get position).nodeid = node.nodeid ∧
      (SendOrigin stored.get imported row.token position ∨
        ReceiveOrigin stored.get imported row.token position) := by
  rw [congrArg NodeRevenue.tokens (eq_nodeRevenue (traced.sorted sorted) member)] at among
  have found := Table.find?_eq_some_iff.mpr ⟨among, rfl⟩
  obtain ⟨forward, listed, carries⟩ :=
    (isSome_find?_nodeRevenue _ _ row.token).mp (Option.isSome_of_eq_some found)
  obtain ⟨listed, equal⟩ := List.mem_filter.mp listed
  obtain ⟨position, _, rfl⟩ := List.mem_map.mp listed
  refine ⟨position, (traced.nodeid position).symm.trans (of_decide_eq_true equal), ?_⟩
  exact carries.imp (traced.sent position row.token) (traced.received position row.token)

/-- A token that the database has for a forward is named for the node of the forward. -/
theorem Traced.token_named (traced : Traced stored.get imported forwards)
    (sorted : SortedByNode stored) {position : Fin stored.length} {token : String}
    (carries : Carries token (stored.get position)) {node : NodeRevenue}
    (member : node ∈ calculateRevenue ((List.finRange stored.length).map forwards))
    (equal : node.nodeid = (stored.get position).nodeid) :
    ∃ row ∈ node.tokens.rows, row.token = token := by
  have listed := List.mem_map_of_mem (f := forwards) (List.mem_finRange position)
  have ours : forwards position ∈ forwardsOf node.nodeid _ :=
    List.mem_filter.mpr ⟨listed, decide_eq_true ((traced.nodeid position).trans equal.symm)⟩
  have found := (isSome_find?_nodeRevenue node.nodeid _ token).mpr
    ⟨_, ours, traced.carries carries⟩
  obtain ⟨row, found⟩ := Option.isSome_iff_exists.mp found
  rw [congrArg NodeRevenue.tokens (eq_nodeRevenue (traced.sorted sorted) member)]
  exact ⟨row, Table.find?_eq_some_iff.mp found⟩

theorem Traced.report (traced : Traced stored.get imported forwards)
    (sorted : SortedByNode stored) :
    ReportOf stored imported
      (calculateRevenue ((List.finRange stored.length).map forwards)) := by
  have grouped := calculateRevenue_grouped (traced.sorted sorted)
  have own := traced.map_bare_forwardsOf
  refine ⟨grouped.distinct, fun nodeid => ⟨?_, ?_⟩, ?_, ?_, ?_, ?_⟩
  · intro member
    obtain ⟨node, among, rfl⟩ := List.mem_map.mp member
    obtain ⟨forward, listed, equal⟩ := (grouped.held node among).1
    obtain ⟨position, _, rfl⟩ := List.mem_map.mp listed
    exact ⟨_, List.get_mem stored position, (traced.nodeid position).symm.trans equal⟩
  · rintro ⟨forward, member, rfl⟩
    obtain ⟨position, rfl⟩ := List.get_of_mem member
    obtain ⟨node, among, equal⟩ := traced.listed sorted position
    exact List.mem_map.mpr ⟨node, among, equal⟩
  · intro node member
    rw [congrArg NodeRevenue.totalFeesMsat (eq_nodeRevenue (traced.sorted sorted) member),
      totalFeesMsat_nodeRevenue, ← sumOf_map_bare, own, sumOf_map_bare]
  · intro node member
    rw [congrArg NodeRevenue.totalForwardCountMsat
      (eq_nodeRevenue (traced.sorted sorted) member), totalForwardCountMsat_nodeRevenue]
    have lengths := congrArg List.length (own node.nodeid)
    rw [List.length_map, List.length_map] at lengths
    rw [lengths]
  · intro node member row among
    exact traced.row_traced sorted member among
  · intro forward member token carries
    obtain ⟨position, rfl⟩ := List.get_of_mem member
    obtain ⟨node, among, equal⟩ := traced.listed sorted position
    exact ⟨node, among, equal, traced.token_named sorted carries among equal⟩

end traced

/-- The report is one of the forwards, whatever is imported and however the tokens and the
htlcs are matched. The forwards come in the order of the query. -/
theorem revenue_report {stored : List RevenueForward} (sorted : SortedByNode stored)
    (imported : List ImportedForward) (htlcs : List OpenChannelHtlc) :
    ReportOf stored imported (revenue stored imported htlcs) :=
  (traced_matchForwards ..).report sorted

private def sampleExport : ExportedForward :=
  ⟨"exported", [3], [2], 1000000001, "send", 20⟩

/-- A report of two forwards of one node, and an export for one of them. -/
theorem revenue_report_sample :
    ReportOf [sampleForward 10 (some "own"), sampleForward 20 none]
      (getImportedForwards [[sampleExport]] 1000000000 2000000000)
      (revenue [sampleForward 10 (some "own"), sampleForward 20 none]
        (getImportedForwards [[sampleExport]] 1000000000 2000000000) []) := by
  refine revenue_report ?_ _ _
  unfold SortedByNode
  decide

end report

end Lspd.Revenue
