import Mathlib.Data.List.Induction
import Lspd.Revenue.Imports
import Lspd.Sorted.Grouping
import Lspd.Store.Table

/-! The totals of the revenue report, for each node and for each token used on it. -/

namespace Lspd.Revenue

open Lspd.Common Lspd.Lightning Lspd.Sorted Lspd.Store Std

structure TokenRevenue where
  token : String
  totalForwardsSend : UInt64 := 0
  totalForwardsReceive : UInt64 := 0
  totalFeesMsatSend : UInt64 := 0
  totalFeesMsatReceive : UInt64 := 0
  totalChannelOpenFees : UInt64 := 0
  deriving DecidableEq

/-- The map of tokens is a table with one row for each token. -/
structure NodeRevenue where
  nodeid : Bytes
  tokens : Table TokenRevenue TokenRevenue.token := .empty
  totalFeesMsat : UInt64 := 0
  totalForwardCountMsat : UInt64 := 0
  totalTokenFeesMsat : UInt64 := 0
  totalChannelFeesMsat : UInt64 := 0

/-- Look up the row of a token, which is made if it is not there, and change it. -/
def changeToken (tokens : Table TokenRevenue TokenRevenue.token) (token : String)
    (change : TokenRevenue → TokenRevenue) (keeps : ∀ row, (change row).token = row.token) :
    Table TokenRevenue TokenRevenue.token :=
  (tokens.insertNew { token }).modify token change keeps

def addSend (currentNode : NodeRevenue) (forward : RevenueForward) : NodeRevenue :=
  match forward.sendToken with
  | none => currentNode
  | some token =>
    let feesMsat := (forward.amtMsatIn - forward.amtMsatOut) / 2
    { currentNode with
      tokens := changeToken currentNode.tokens token (fun sendToken =>
        { sendToken with
          totalFeesMsatSend := sendToken.totalFeesMsatSend + feesMsat
          totalForwardsSend := sendToken.totalForwardsSend + 1 }) fun _ => rfl
      totalTokenFeesMsat := feesMsat }

def addReceive (currentNode : NodeRevenue) (forward : RevenueForward) : NodeRevenue :=
  match forward.receiveToken with
  | none => currentNode
  | some token =>
    let feesMsat := (forward.amtMsatIn - forward.amtMsatOut) / 2
    let openFeesMsat := match forward.openChannelHtlc with
      | none => 0
      | some htlc => htlc.originalAmountMsat - htlc.forwardAmountMsat
    { currentNode with
      tokens := changeToken currentNode.tokens token (fun receiveToken =>
        { receiveToken with
          totalChannelOpenFees := receiveToken.totalChannelOpenFees + openFeesMsat
          totalFeesMsatReceive := receiveToken.totalFeesMsatReceive + feesMsat
          totalForwardsReceive := receiveToken.totalForwardsReceive + 1 }) fun _ => rfl
      totalTokenFeesMsat := feesMsat
      totalChannelFeesMsat := currentNode.totalChannelFeesMsat + openFeesMsat }

/-- One pass of the loop, for the node of the forward. -/
def addForward (currentNode : NodeRevenue) (forward : RevenueForward) : NodeRevenue :=
  addReceive (addSend { currentNode with
    totalFeesMsat := currentNode.totalFeesMsat + (forward.amtMsatIn - forward.amtMsatOut)
    totalForwardCountMsat := currentNode.totalForwardCountMsat + 1 } forward) forward

/-- The nodes of the response. A new node begins where the node id changes. -/
def calculateRevenue (forwards : List RevenueForward) : List NodeRevenue :=
  groupAll RevenueForward.nodeid NodeRevenue.nodeid (fun nodeid => { nodeid }) addForward forwards

section nodes

theorem addSend_nodeid (node : NodeRevenue) (forward : RevenueForward) :
    (addSend node forward).nodeid = node.nodeid := by
  unfold addSend
  split <;> rfl

theorem addReceive_nodeid (node : NodeRevenue) (forward : RevenueForward) :
    (addReceive node forward).nodeid = node.nodeid := by
  unfold addReceive
  split <;> rfl

theorem addForward_nodeid (node : NodeRevenue) (forward : RevenueForward) :
    (addForward node forward).nodeid = node.nodeid := by
  rw [addForward, addReceive_nodeid, addSend_nodeid]

/-- The forwards of one node, added up. -/
def nodeRevenue (nodeid : Bytes) (forwards : List RevenueForward) : NodeRevenue :=
  forwards.foldl addForward { nodeid }

theorem nodeRevenue_concat (nodeid : Bytes) (forwards : List RevenueForward)
    (forward : RevenueForward) :
    nodeRevenue nodeid (forwards ++ [forward]) = addForward (nodeRevenue nodeid forwards) forward :=
  List.foldl_concat ..

theorem calculateRevenue_grouped {forwards : List RevenueForward}
    (sorted : forwards.Pairwise fun one two => (Ord.compare one.nodeid two.nodeid).isLE) :
    Grouped RevenueForward.nodeid NodeRevenue.nodeid (fun nodeid => { nodeid }) addForward forwards
      (calculateRevenue forwards) :=
  groupAll_grouped (fun _ => rfl) addForward_nodeid sorted

end nodes

section totals

def feeMsat (forward : RevenueForward) : UInt64 := forward.amtMsatIn - forward.amtMsatOut

def halfFee (forward : RevenueForward) : UInt64 := feeMsat forward / 2

def openFee (forward : RevenueForward) : UInt64 :=
  match forward.openChannelHtlc with
  | none => 0
  | some htlc => htlc.originalAmountMsat - htlc.forwardAmountMsat

def sentWith (token : String) (forwards : List RevenueForward) : List RevenueForward :=
  forwards.filter fun forward => forward.sendToken = some token

def receivedWith (token : String) (forwards : List RevenueForward) : List RevenueForward :=
  forwards.filter fun forward => forward.receiveToken = some token

/-- A sum of machine numbers, which has not wrapped around yet. -/
def sumOf (value : RevenueForward → UInt64) (forwards : List RevenueForward) : Nat :=
  (forwards.map fun forward => (value forward).toNat).sum

/-- The row a token should have for some forwards. -/
def tokenTotals (token : String) (forwards : List RevenueForward) : TokenRevenue where
  token := token
  totalForwardsSend := .ofNat (sentWith token forwards).length
  totalForwardsReceive := .ofNat (receivedWith token forwards).length
  totalFeesMsatSend := .ofNat (sumOf halfFee (sentWith token forwards))
  totalFeesMsatReceive := .ofNat (sumOf halfFee (receivedWith token forwards))
  totalChannelOpenFees := .ofNat (sumOf openFee (receivedWith token forwards))

/-- The row of a token, or one without any forwards. -/
def rowOf (tokens : Table TokenRevenue TokenRevenue.token) (token : String) : TokenRevenue :=
  (tokens.find? token).getD { token }

variable {tokens : Table TokenRevenue TokenRevenue.token} {token wanted : String}
  {change : TokenRevenue → TokenRevenue} {keeps : ∀ row, (change row).token = row.token}

theorem find?_changeToken : (changeToken tokens token change keeps).find? wanted =
    if wanted = token then some (change (rowOf tokens wanted)) else tokens.find? wanted := by
  rw [changeToken, Table.find?_modify, Table.find?_insertNew]
  by_cases same : wanted = token
  · subst same
    cases found : tokens.find? wanted <;> simp [rowOf, found]
  · have other : token ≠ wanted := fun equal => same equal.symm
    cases found : tokens.find? wanted <;> simp [same, other]

theorem rowOf_changeToken : rowOf (changeToken tokens token change keeps) wanted =
    if wanted = token then change (rowOf tokens wanted) else rowOf tokens wanted := by
  rw [rowOf, find?_changeToken]
  split <;> rfl

theorem rowOf_addSend (node : NodeRevenue) (forward : RevenueForward) (token : String) :
    rowOf (addSend node forward).tokens token =
      if forward.sendToken = some token then
        { rowOf node.tokens token with
          totalFeesMsatSend := (rowOf node.tokens token).totalFeesMsatSend + halfFee forward
          totalForwardsSend := (rowOf node.tokens token).totalForwardsSend + 1 }
      else rowOf node.tokens token := by
  unfold addSend
  cases carried : forward.sendToken with
  | none => rfl
  | some own =>
    rw [rowOf_changeToken]
    simp only [Option.some.injEq, @eq_comm _ own]
    rfl

theorem rowOf_addReceive (node : NodeRevenue) (forward : RevenueForward) (token : String) :
    rowOf (addReceive node forward).tokens token =
      if forward.receiveToken = some token then
        { rowOf node.tokens token with
          totalChannelOpenFees := (rowOf node.tokens token).totalChannelOpenFees + openFee forward
          totalFeesMsatReceive := (rowOf node.tokens token).totalFeesMsatReceive + halfFee forward
          totalForwardsReceive := (rowOf node.tokens token).totalForwardsReceive + 1 }
      else rowOf node.tokens token := by
  unfold addReceive
  cases carried : forward.receiveToken with
  | none => rfl
  | some own =>
    rw [rowOf_changeToken]
    simp only [Option.some.injEq, @eq_comm _ own]
    rfl

/-- What a forward adds to the row of a token. -/
def countForward (token : String) (row : TokenRevenue) (forward : RevenueForward) :
    TokenRevenue where
  token := row.token
  totalForwardsSend := row.totalForwardsSend + if forward.sendToken = some token then 1 else 0
  totalForwardsReceive :=
    row.totalForwardsReceive + if forward.receiveToken = some token then 1 else 0
  totalFeesMsatSend :=
    row.totalFeesMsatSend + if forward.sendToken = some token then halfFee forward else 0
  totalFeesMsatReceive :=
    row.totalFeesMsatReceive + if forward.receiveToken = some token then halfFee forward else 0
  totalChannelOpenFees :=
    row.totalChannelOpenFees + if forward.receiveToken = some token then openFee forward else 0

theorem rowOf_addForward (node : NodeRevenue) (forward : RevenueForward) (token : String) :
    rowOf (addForward node forward).tokens token =
      countForward token (rowOf node.tokens token) forward := by
  rw [addForward, rowOf_addReceive, rowOf_addSend]
  by_cases sends : forward.sendToken = some token <;>
    by_cases receives : forward.receiveToken = some token <;>
    simp [countForward, sends, receives]

theorem tokenTotals_concat (token : String) (forwards : List RevenueForward)
    (forward : RevenueForward) : tokenTotals token (forwards ++ [forward]) =
      countForward token (tokenTotals token forwards) forward := by
  by_cases sends : forward.sendToken = some token <;>
    by_cases receives : forward.receiveToken = some token <;>
    simp [countForward, tokenTotals, sentWith, receivedWith, sumOf, sends, receives,
      UInt64.ofNat_add]

theorem rowOf_nodeRevenue (nodeid : Bytes) (forwards : List RevenueForward) (token : String) :
    rowOf (nodeRevenue nodeid forwards).tokens token = tokenTotals token forwards := by
  induction forwards using List.reverseRecOn with
  | nil => rfl
  | append_singleton forwards forward ih =>
    rw [nodeRevenue_concat, rowOf_addForward, ih, tokenTotals_concat]

/-- A forward carries a token, on either side. -/
def Carries (token : String) (forward : RevenueForward) : Prop :=
  forward.sendToken = some token ∨ forward.receiveToken = some token

theorem isSome_find?_changeToken : ((changeToken tokens token change keeps).find? wanted).isSome ↔
    wanted = token ∨ (tokens.find? wanted).isSome := by
  rw [find?_changeToken]
  by_cases same : wanted = token <;> simp [same]

theorem isSome_find?_addForward (node : NodeRevenue) (forward : RevenueForward) (token : String) :
    ((addForward node forward).tokens.find? token).isSome ↔
      Carries token forward ∨ (node.tokens.find? token).isSome := by
  unfold addForward addReceive addSend Carries
  cases forward.sendToken <;> cases forward.receiveToken <;>
    simp [isSome_find?_changeToken, @eq_comm _ token, or_assoc, or_left_comm]

/-- A node has a row for each token that one of its forwards carries. -/
theorem isSome_find?_nodeRevenue (nodeid : Bytes) (forwards : List RevenueForward)
    (token : String) : ((nodeRevenue nodeid forwards).tokens.find? token).isSome ↔
      ∃ forward ∈ forwards, Carries token forward := by
  induction forwards using List.reverseRecOn with
  | nil => simp [nodeRevenue, Table.find?, Table.empty]
  | append_singleton forwards forward ih =>
    rw [nodeRevenue_concat, isSome_find?_addForward, ih]
    simp [or_and_right, exists_or, or_comm]

/-- Every row of a node has the totals of its token. -/
theorem eq_tokenTotals {nodeid : Bytes} {forwards : List RevenueForward} {row : TokenRevenue}
    (member : row ∈ (nodeRevenue nodeid forwards).tokens.rows) :
    row = tokenTotals row.token forwards := by
  have found := Table.find?_eq_some_iff.mpr ⟨member, rfl⟩
  rw [← rowOf_nodeRevenue nodeid forwards row.token, rowOf, found, Option.getD_some]

/-- The fees of the forwards, once for each side that carries a token, in the order the
sides are visited. -/
def tokenSides (forwards : List RevenueForward) : List UInt64 :=
  forwards.flatMap fun forward =>
    (forward.sendToken.toList ++ forward.receiveToken.toList).map fun _ => feeMsat forward

/-- What a forward does to the totals of its node. -/
theorem totals_addForward (node : NodeRevenue) (forward : RevenueForward) :
    (addForward node forward).totalFeesMsat = node.totalFeesMsat + feeMsat forward ∧
    (addForward node forward).totalForwardCountMsat = node.totalForwardCountMsat + 1 ∧
    (addForward node forward).totalChannelFeesMsat =
      node.totalChannelFeesMsat + (if forward.receiveToken.isSome then openFee forward else 0) ∧
    (addForward node forward).totalTokenFeesMsat =
      ((tokenSides [forward]).map (· / 2)).getLast?.getD node.totalTokenFeesMsat := by
  unfold addForward addReceive addSend
  cases sends : forward.sendToken <;> cases receives : forward.receiveToken <;>
    simp [openFee, feeMsat, tokenSides, sends, receives]

/-- A total to which every forward adds a value. -/
theorem total_nodeRevenue (total : NodeRevenue → UInt64) (value : RevenueForward → UInt64)
    (zero : ∀ nodeid, total { nodeid } = 0)
    (step : ∀ node forward, total (addForward node forward) = total node + value forward)
    (nodeid : Bytes) (forwards : List RevenueForward) :
    total (nodeRevenue nodeid forwards) = .ofNat (sumOf value forwards) := by
  induction forwards using List.reverseRecOn with
  | nil => exact zero nodeid
  | append_singleton forwards forward ih =>
    rw [nodeRevenue_concat, step, ih]
    simp [sumOf, UInt64.ofNat_add]

theorem totalFeesMsat_nodeRevenue (nodeid : Bytes) (forwards : List RevenueForward) :
    (nodeRevenue nodeid forwards).totalFeesMsat = .ofNat (sumOf feeMsat forwards) := by
  refine total_nodeRevenue NodeRevenue.totalFeesMsat feeMsat (fun _ => rfl) ?_ nodeid forwards
  exact fun node forward => (totals_addForward node forward).1

theorem totalForwardCountMsat_nodeRevenue (nodeid : Bytes) (forwards : List RevenueForward) :
    (nodeRevenue nodeid forwards).totalForwardCountMsat = .ofNat forwards.length := by
  have counted := total_nodeRevenue NodeRevenue.totalForwardCountMsat (fun _ => 1) (fun _ => rfl)
    (fun node forward => (totals_addForward node forward).2.1) nodeid forwards
  simpa [sumOf] using counted

theorem sumOf_filter (value : RevenueForward → UInt64) (keep : RevenueForward → Bool)
    (forwards : List RevenueForward) :
    sumOf value (forwards.filter keep) =
      sumOf (fun forward => if keep forward then value forward else 0) forwards := by
  induction forwards with
  | nil => rfl
  | cons forward rest ih =>
    simp only [sumOf] at ih ⊢
    by_cases kept : keep forward <;> simp [kept, ih]

theorem totalChannelFeesMsat_nodeRevenue (nodeid : Bytes) (forwards : List RevenueForward) :
    (nodeRevenue nodeid forwards).totalChannelFeesMsat =
      .ofNat (sumOf openFee (forwards.filter fun forward => forward.receiveToken.isSome)) := by
  rw [sumOf_filter]
  refine total_nodeRevenue NodeRevenue.totalChannelFeesMsat _ (fun _ => rfl) ?_ nodeid forwards
  exact fun node forward => (totals_addForward node forward).2.2.1

/-- Only the last side is left in the token fees of a node. -/
theorem totalTokenFeesMsat_nodeRevenue (nodeid : Bytes) (forwards : List RevenueForward) :
    (nodeRevenue nodeid forwards).totalTokenFeesMsat =
      ((tokenSides forwards).map (· / 2)).getLast?.getD 0 := by
  induction forwards using List.reverseRecOn with
  | nil => rfl
  | append_singleton forwards forward ih =>
    have sides : tokenSides (forwards ++ [forward]) = tokenSides forwards ++ tokenSides [forward] :=
      List.flatMap_append
    rw [nodeRevenue_concat, (totals_addForward _ forward).2.2.2, ih, sides, List.map_append,
      List.getLast?_append]
    cases ((tokenSides [forward]).map (· / 2)).getLast? <;> rfl

end totals

section sums

variable {forwards : List RevenueForward}

theorem two_halfFee_le (forward : RevenueForward) :
    2 * (halfFee forward).toNat ≤ (feeMsat forward).toNat := by
  rw [halfFee, UInt64.toNat_div]
  exact Nat.mul_div_le _ 2

theorem sumOf_filter_le (value : RevenueForward → UInt64) (keep : RevenueForward → Bool)
    (forwards : List RevenueForward) : sumOf value (forwards.filter keep) ≤ sumOf value forwards := by
  induction forwards with
  | nil => exact Nat.le_refl _
  | cons forward rest ih =>
    simp only [sumOf] at ih ⊢
    by_cases kept : keep forward <;> simp [kept] <;> omega

/-- Both halves of the fees of some forwards are within their fees. -/
theorem sumOf_halves_le (send receive : RevenueForward → Bool) (forwards : List RevenueForward) :
    sumOf halfFee (forwards.filter send) + sumOf halfFee (forwards.filter receive) ≤
      sumOf feeMsat forwards := by
  have sends := sumOf_filter_le halfFee send forwards
  have receives := sumOf_filter_le halfFee receive forwards
  have twice : 2 * sumOf halfFee forwards ≤ sumOf feeMsat forwards := by
    clear sends receives
    induction forwards with
    | nil => exact Nat.le_refl _
    | cons forward rest ih =>
      have here := two_halfFee_le forward
      simp only [sumOf, List.map_cons, List.sum_cons] at ih ⊢
      omega
  omega

/-- Over the rows of a node, the sums of the forwards with each token are the sum of all
forwards with a token. -/
theorem sum_rows (nodeid : Bytes) (forwards : List RevenueForward)
    (label : RevenueForward → Option String) (value : RevenueForward → UInt64)
    (carried : ∀ forward token, label forward = some token → Carries token forward) :
    ((nodeRevenue nodeid forwards).tokens.rows.map fun row =>
      sumOf value (forwards.filter fun forward => label forward = some row.token)).sum =
    sumOf value (forwards.filter fun forward => (label forward).isSome) := by
  have distinct : ((nodeRevenue nodeid forwards).tokens.rows.map TokenRevenue.token).Nodup :=
    List.pairwise_map.mpr (nodeRevenue nodeid forwards).tokens.unique
  have covered : ∀ forward ∈ forwards, ∀ token, label forward = some token →
      token ∈ (nodeRevenue nodeid forwards).tokens.rows.map TokenRevenue.token := by
    intro forward member token labelled
    have found := (isSome_find?_nodeRevenue nodeid forwards token).mpr
      ⟨forward, member, carried forward token labelled⟩
    obtain ⟨row, present⟩ := Option.isSome_iff_exists.mp found
    obtain ⟨among, same⟩ := Table.find?_eq_some_iff.mp present
    exact List.mem_map.mpr ⟨row, among, same⟩
  have summed := sum_by_label distinct label (fun forward => (value forward).toNat) covered
  rwa [List.map_map] at summed

/-- The half fees of both sides together. -/
theorem sumOf_sides (forwards : List RevenueForward) :
    sumOf halfFee (forwards.filter fun forward => forward.sendToken.isSome) +
      sumOf halfFee (forwards.filter fun forward => forward.receiveToken.isSome) =
    ((tokenSides forwards).map fun fee => (fee / 2).toNat).sum := by
  induction forwards with
  | nil => rfl
  | cons forward rest ih =>
    rw [tokenSides, List.flatMap_cons, List.map_append, List.sum_append]
    change _ = _ + ((tokenSides rest).map fun fee => (fee / 2).toNat).sum
    rw [← ih]
    cases sends : forward.sendToken <;> cases receives : forward.receiveToken <;>
      simp [sumOf, sends, receives, halfFee] <;> omega

/-- Twice the half fees of the sides with a token are within the fees. -/
theorem sum_tokenSides_le (forwards : List RevenueForward) :
    ((tokenSides forwards).map fun fee => (fee / 2).toNat).sum ≤ sumOf feeMsat forwards :=
  sumOf_sides forwards ▸ sumOf_halves_le _ _ forwards

/-- A total that the rows keep for one side of the forwards: the row of each token has the
sum over the forwards with that token, and all rows together that of the forwards with any. -/
theorem row_totals (total : TokenRevenue → UInt64) (label : RevenueForward → Option String)
    (value : RevenueForward → UInt64)
    (carried : ∀ forward token, label forward = some token → Carries token forward)
    (totals : ∀ token, total (tokenTotals token forwards) =
      .ofNat (sumOf value (forwards.filter fun forward => label forward = some token)))
    (size : sumOf value (forwards.filter fun forward => (label forward).isSome) < 2 ^ 64)
    (nodeid : Bytes) :
    (∀ row ∈ (nodeRevenue nodeid forwards).tokens.rows, (total row).toNat =
      sumOf value (forwards.filter fun forward => label forward = some row.token)) ∧
    ((nodeRevenue nodeid forwards).tokens.rows.map fun row => (total row).toNat).sum =
      sumOf value (forwards.filter fun forward => (label forward).isSome) := by
  have rows : ∀ row ∈ (nodeRevenue nodeid forwards).tokens.rows, (total row).toNat =
      sumOf value (forwards.filter fun forward => label forward = some row.token) := by
    intro row member
    have within := sumOf_filter_le value (fun forward => label forward = some row.token)
      (forwards.filter fun forward => (label forward).isSome)
    have inside : (forwards.filter fun forward => (label forward).isSome).filter
        (fun forward => label forward = some row.token) =
        forwards.filter fun forward => label forward = some row.token := by
      rw [List.filter_filter]
      refine List.filter_congr fun forward _ => ?_
      cases label forward <;> simp
    rw [inside] at within
    have counted := (congrArg total (eq_tokenTotals member)).trans (totals row.token)
    rw [counted, UInt64.toNat_ofNat_of_lt' (Nat.lt_of_le_of_lt within size)]
  refine ⟨rows, ?_⟩
  rw [← sum_rows nodeid forwards label value carried, List.map_congr_left rows]

theorem send_totals (size : sumOf halfFee
      (forwards.filter fun forward => forward.sendToken.isSome) < 2 ^ 64) (nodeid : Bytes) :
    (∀ row ∈ (nodeRevenue nodeid forwards).tokens.rows,
      row.totalFeesMsatSend.toNat = sumOf halfFee (sentWith row.token forwards)) ∧
    ((nodeRevenue nodeid forwards).tokens.rows.map fun row => row.totalFeesMsatSend.toNat).sum =
      sumOf halfFee (forwards.filter fun forward => forward.sendToken.isSome) :=
  row_totals TokenRevenue.totalFeesMsatSend RevenueForward.sendToken halfFee
    (fun _ _ => Or.inl) (fun _ => rfl) size nodeid

theorem receive_totals (size : sumOf halfFee
      (forwards.filter fun forward => forward.receiveToken.isSome) < 2 ^ 64) (nodeid : Bytes) :
    (∀ row ∈ (nodeRevenue nodeid forwards).tokens.rows,
      row.totalFeesMsatReceive.toNat = sumOf halfFee (receivedWith row.token forwards)) ∧
    ((nodeRevenue nodeid forwards).tokens.rows.map fun row => row.totalFeesMsatReceive.toNat).sum =
      sumOf halfFee (forwards.filter fun forward => forward.receiveToken.isSome) :=
  row_totals TokenRevenue.totalFeesMsatReceive RevenueForward.receiveToken halfFee
    (fun _ _ => Or.inr) (fun _ => rfl) size nodeid

theorem open_totals (size : sumOf openFee
      (forwards.filter fun forward => forward.receiveToken.isSome) < 2 ^ 64) (nodeid : Bytes) :
    ((nodeRevenue nodeid forwards).tokens.rows.map fun row => row.totalChannelOpenFees.toNat).sum =
      sumOf openFee (forwards.filter fun forward => forward.receiveToken.isSome) :=
  (row_totals TokenRevenue.totalChannelOpenFees RevenueForward.receiveToken openFee
    (fun _ _ => Or.inr) (fun _ => rfl) size nodeid).2

end sums

section results

/-- What a node's revenue should be for its own forwards, whose fees are what comes in
above what goes out. -/
structure NodeTotals (own : List RevenueForward) (node : NodeRevenue) : Prop where
  fees : node.totalFeesMsat.toNat =
    (own.map fun forward => forward.amtMsatIn.toNat - forward.amtMsatOut.toNat).sum
  count : node.totalForwardCountMsat.toNat = own.length
  tokens : ∀ token, (∃ row ∈ node.tokens.rows, row.token = token) ↔
    ∃ forward ∈ own, Carries token forward
  send : ∀ row ∈ node.tokens.rows,
    row.totalForwardsSend.toNat = (sentWith row.token own).length ∧
    row.totalFeesMsatSend.toNat = ((sentWith row.token own).map fun forward =>
      (forward.amtMsatIn.toNat - forward.amtMsatOut.toNat) / 2).sum
  receive : ∀ row ∈ node.tokens.rows,
    row.totalForwardsReceive.toNat = (receivedWith row.token own).length ∧
    row.totalFeesMsatReceive.toNat = ((receivedWith row.token own).map fun forward =>
      (forward.amtMsatIn.toNat - forward.amtMsatOut.toNat) / 2).sum
  conserved : (node.tokens.rows.map fun row =>
    row.totalFeesMsatSend.toNat + row.totalFeesMsatReceive.toNat).sum ≤ node.totalFeesMsat.toNat

theorem toNat_feeMsat {forward : RevenueForward} (earns : forward.amtMsatOut ≤ forward.amtMsatIn) :
    (feeMsat forward).toNat = forward.amtMsatIn.toNat - forward.amtMsatOut.toNat :=
  UInt64.toNat_sub_of_le _ _ earns

theorem sumOf_feeMsat {own : List RevenueForward}
    (earns : ∀ forward ∈ own, forward.amtMsatOut ≤ forward.amtMsatIn) :
    sumOf feeMsat own =
      (own.map fun forward => forward.amtMsatIn.toNat - forward.amtMsatOut.toNat).sum :=
  congrArg List.sum (List.map_congr_left fun forward member => toNat_feeMsat (earns forward member))

theorem sumOf_halfFee {own : List RevenueForward}
    (earns : ∀ forward ∈ own, forward.amtMsatOut ≤ forward.amtMsatIn) :
    sumOf halfFee own =
      (own.map fun forward => (forward.amtMsatIn.toNat - forward.amtMsatOut.toNat) / 2).sum := by
  refine congrArg List.sum (List.map_congr_left fun forward member => ?_)
  rw [halfFee, UInt64.toNat_div, toNat_feeMsat (earns forward member)]
  rfl

theorem earns_filter {own : List RevenueForward} (keep : RevenueForward → Bool)
    (earns : ∀ forward ∈ own, forward.amtMsatOut ≤ forward.amtMsatIn) :
    ∀ forward ∈ own.filter keep, forward.amtMsatOut ≤ forward.amtMsatIn :=
  fun forward member => earns forward (List.mem_of_mem_filter member)

theorem nodeRevenue_totals (nodeid : Bytes) {own : List RevenueForward}
    (earns : ∀ forward ∈ own, forward.amtMsatOut ≤ forward.amtMsatIn)
    (fees : sumOf feeMsat own < 2 ^ 64) (count : own.length < 2 ^ 64) :
    NodeTotals own (nodeRevenue nodeid own) := by
  have total : (nodeRevenue nodeid own).totalFeesMsat.toNat = sumOf feeMsat own := by
    rw [totalFeesMsat_nodeRevenue, UInt64.toNat_ofNat_of_lt' fees]
  have few (keep : RevenueForward → Bool) : (own.filter keep).length < 2 ^ 64 :=
    Nat.lt_of_le_of_lt (List.length_filter_le keep own) count
  have halves := sumOf_halves_le (fun forward => forward.sendToken.isSome)
    (fun forward => forward.receiveToken.isSome) own
  obtain ⟨sends, sent⟩ := @send_totals own (by omega) nodeid
  obtain ⟨receives, received⟩ := @receive_totals own (by omega) nodeid
  refine ⟨?_, ?_, ?_, ?_, ?_, ?_⟩
  · rw [total, sumOf_feeMsat earns]
  · rw [totalForwardCountMsat_nodeRevenue, UInt64.toNat_ofNat_of_lt' count]
  · intro token
    rw [← isSome_find?_nodeRevenue nodeid, Option.isSome_iff_exists]
    simp only [Table.find?_eq_some_iff]
  · intro row member
    refine ⟨?_, (sends row member).trans (sumOf_halfFee (earns_filter _ earns))⟩
    rw [congrArg TokenRevenue.totalForwardsSend (eq_tokenTotals member)]
    exact UInt64.toNat_ofNat_of_lt' (few _)
  · intro row member
    refine ⟨?_, (receives row member).trans (sumOf_halfFee (earns_filter _ earns))⟩
    rw [congrArg TokenRevenue.totalForwardsReceive (eq_tokenTotals member)]
    exact UInt64.toNat_ofNat_of_lt' (few _)
  · rw [total, List.sum_map_add, sent, received]
    exact halves

/-- The forwards of one node. -/
def forwardsOf (nodeid : Bytes) (forwards : List RevenueForward) : List RevenueForward :=
  forwards.filter fun forward => forward.nodeid = nodeid

theorem sumOf_forwardsOf_le (value : RevenueForward → UInt64) (nodeid : Bytes)
    (forwards : List RevenueForward) :
    sumOf value (forwardsOf nodeid forwards) ≤ sumOf value forwards :=
  sumOf_filter_le value _ forwards

theorem eq_nodeRevenue {forwards : List RevenueForward} {node : NodeRevenue}
    (sorted : forwards.Pairwise fun one two => (Ord.compare one.nodeid two.nodeid).isLE)
    (member : node ∈ calculateRevenue forwards) :
    node = nodeRevenue node.nodeid (forwardsOf node.nodeid forwards) :=
  ((calculateRevenue_grouped sorted).held node member).2

/-- One node for each node id, with the totals of exactly its own forwards. -/
theorem calculateRevenue_exact (forwards : List RevenueForward)
    (sorted : forwards.Pairwise fun one two => (Ord.compare one.nodeid two.nodeid).isLE)
    (earns : ∀ forward ∈ forwards, forward.amtMsatOut ≤ forward.amtMsatIn)
    (fees : ∀ nodeid, ((forwardsOf nodeid forwards).map fun forward =>
      forward.amtMsatIn.toNat - forward.amtMsatOut.toNat).sum < 2 ^ 64)
    (count : forwards.length < 2 ^ 64) :
    ((calculateRevenue forwards).map NodeRevenue.nodeid).Nodup ∧
    (∀ nodeid, nodeid ∈ (calculateRevenue forwards).map NodeRevenue.nodeid ↔
      ∃ forward ∈ forwards, forward.nodeid = nodeid) ∧
    ∀ node ∈ calculateRevenue forwards, NodeTotals (forwardsOf node.nodeid forwards) node := by
  have grouped := calculateRevenue_grouped sorted
  refine ⟨grouped.distinct, ?_, ?_⟩
  · intro nodeid
    constructor
    · intro member
      obtain ⟨node, among, rfl⟩ := List.mem_map.mp member
      exact (grouped.held node among).1
    · rintro ⟨forward, member, rfl⟩
      exact grouped.total forward member
  · intro node member
    have ownEarns := earns_filter (fun forward => forward.nodeid = node.nodeid) earns
    have totals := nodeRevenue_totals node.nodeid ownEarns
      (by rw [sumOf_feeMsat ownEarns]; exact fees node.nodeid)
      (Nat.lt_of_le_of_lt (List.length_filter_le _ _) count)
    exact (congrArg (NodeTotals _) (eq_nodeRevenue sorted member)).mpr totals

private def reportForward (nodeid : Bytes) (amtMsatIn : UInt64) (send receive : Option String) :
    RevenueForward :=
  { sampleForward 100 send with nodeid, amtMsatIn, receiveToken := receive }

/-- Two nodes, and one token on both sides of a forward. -/
private def twoNodes : List RevenueForward :=
  [reportForward [1] 111 (some "a") (some "a"), reportForward [1] 120 none (some "b"),
    reportForward [2] 107 (some "a") none]

/-- The fees of the first node are 11 and 20. -/
theorem calculateRevenue_exact_sample :
    (calculateRevenue twoNodes).map NodeRevenue.nodeid = [[1], [2]] ∧
    ∀ node ∈ calculateRevenue twoNodes, NodeTotals (forwardsOf node.nodeid twoNodes) node := by
  have earns : ∀ forward ∈ twoNodes, forward.amtMsatOut ≤ forward.amtMsatIn := by decide
  refine ⟨rfl, (calculateRevenue_exact twoNodes (by decide) earns ?_ (by decide)).2.2⟩
  intro nodeid
  have total : sumOf feeMsat twoNodes < 2 ^ 64 := by decide
  have within := Nat.lt_of_le_of_lt (sumOf_forwardsOf_le feeMsat nodeid twoNodes) total
  exact sumOf_feeMsat (earns_filter _ earns) ▸ within

/-- The totals of a node are those of its tokens together. -/
def TotalsAgree (node : NodeRevenue) : Prop :=
  node.totalTokenFeesMsat.toNat = (node.tokens.rows.map fun row =>
    row.totalFeesMsatSend.toNat + row.totalFeesMsatReceive.toNat).sum ∧
  node.totalChannelFeesMsat.toNat =
    (node.tokens.rows.map fun row => row.totalChannelOpenFees.toNat).sum

/-- All sides of some forwards with a token have a fee below 2, but for the last. -/
def OnlyLastEarns (own : List RevenueForward) : Prop := ∀ fee ∈ (tokenSides own).dropLast, fee < 2

theorem half_eq_zero_iff (fee : UInt64) : (fee / 2).toNat = 0 ↔ fee < 2 := by
  rw [UInt64.toNat_div, UInt64.lt_iff_toNat_lt]
  change fee.toNat / 2 = 0 ↔ fee.toNat < 2
  omega

theorem nodeRevenue_agrees_iff (nodeid : Bytes) {own : List RevenueForward}
    (fees : ((tokenSides own).map fun fee => (fee / 2).toNat).sum < 2 ^ 64)
    (opened : sumOf openFee (own.filter fun forward => forward.receiveToken.isSome) < 2 ^ 64) :
    TotalsAgree (nodeRevenue nodeid own) ↔ OnlyLastEarns own := by
  have sides := sumOf_sides own
  have sent := (@send_totals own (by omega) nodeid).2
  have received := (@receive_totals own (by omega) nodeid).2
  have channels : (nodeRevenue nodeid own).totalChannelFeesMsat.toNat =
      ((nodeRevenue nodeid own).tokens.rows.map fun row => row.totalChannelOpenFees.toNat).sum := by
    rw [totalChannelFeesMsat_nodeRevenue, open_totals opened, UInt64.toNat_ofNat_of_lt' opened]
  have last : (nodeRevenue nodeid own).totalTokenFeesMsat.toNat =
      ((tokenSides own).map fun fee => (fee / 2).toNat).getLast?.getD 0 := by
    rw [totalTokenFeesMsat_nodeRevenue, List.getLast?_map, List.getLast?_map]
    cases (tokenSides own).getLast? <;> rfl
  rw [TotalsAgree, and_iff_left channels, List.sum_map_add, sent, received, sides, last,
    sum_eq_getLast_iff, ← List.map_dropLast]
  simp only [List.forall_mem_map, half_eq_zero_iff]
  rfl

/-- The token fees of every node are those of its tokens if and only if no side with a
token that earns something is followed by another one of the node. -/
theorem calculateRevenue_agrees_iff (forwards : List RevenueForward)
    (sorted : forwards.Pairwise fun one two => (Ord.compare one.nodeid two.nodeid).isLE)
    (fees : ∀ nodeid, ((tokenSides (forwardsOf nodeid forwards)).map fun fee =>
      (fee / 2).toNat).sum < 2 ^ 64)
    (opened : ∀ nodeid, sumOf openFee ((forwardsOf nodeid forwards).filter fun forward =>
      forward.receiveToken.isSome) < 2 ^ 64) :
    (∀ node ∈ calculateRevenue forwards, TotalsAgree node) ↔
      ∀ nodeid, OnlyLastEarns (forwardsOf nodeid forwards) := by
  have grouped := calculateRevenue_grouped sorted
  have agrees {node : NodeRevenue} (member : node ∈ calculateRevenue forwards) :
      TotalsAgree node ↔ OnlyLastEarns (forwardsOf node.nodeid forwards) := by
    rw [congrArg TotalsAgree (eq_nodeRevenue sorted member)]
    exact nodeRevenue_agrees_iff node.nodeid (fees node.nodeid) (opened node.nodeid)
  constructor
  · intro all nodeid
    by_cases known : ∃ forward ∈ forwards, forward.nodeid = nodeid
    · obtain ⟨forward, member, rfl⟩ := known
      obtain ⟨node, among, same⟩ := List.mem_map.mp (grouped.total forward member)
      rw [← same]
      exact (agrees among).mp (all node among)
    · have empty : forwardsOf nodeid forwards = [] := by
        rw [forwardsOf, List.filter_eq_nil_iff]
        simpa using known
      rw [empty]
      exact List.forall_mem_nil _
  · intro only node member
    exact (agrees member).mpr (only node.nodeid)

/-- A forward without a token follows one with a token. -/
private def oneToken : List RevenueForward :=
  [reportForward [1] 110 (some "a") none, reportForward [1] 120 none none]

theorem calculateRevenue_agrees_one_token :
    (calculateRevenue oneToken).map NodeRevenue.nodeid = [[1]] ∧
    ∀ node ∈ calculateRevenue oneToken, TotalsAgree node := by
  refine ⟨rfl, (calculateRevenue_agrees_iff oneToken (by decide) ?_ ?_).mpr ?_⟩
  · intro nodeid
    have sides := sum_tokenSides_le (forwardsOf nodeid oneToken)
    have within := sumOf_forwardsOf_le feeMsat nodeid oneToken
    have total : sumOf feeMsat oneToken < 2 ^ 64 := by decide
    omega
  · intro nodeid
    have received := sumOf_filter_le openFee (fun forward => forward.receiveToken.isSome)
      (forwardsOf nodeid oneToken)
    have within := sumOf_forwardsOf_le openFee nodeid oneToken
    have total : sumOf openFee oneToken < 2 ^ 64 := by decide
    omega
  · intro nodeid
    by_cases same : nodeid = [1]
    · simp [OnlyLastEarns, forwardsOf, oneToken, reportForward, sampleForward, tokenSides, same]
    · have other : [1] ≠ nodeid := fun equal => same equal.symm
      simp [OnlyLastEarns, forwardsOf, oneToken, reportForward, sampleForward, tokenSides, other]

/-- Two forwards of one node with tokens. -/
private def twoTokens : List RevenueForward :=
  [reportForward [1] 110 (some "a") none, reportForward [1] 110 (some "b") none]

/-- Each token has earned 5, and so has the node by its own total. -/
theorem second_token_replaces_first :
    (twoTokens.Pairwise fun one two => (Ord.compare one.nodeid two.nodeid).isLE) ∧
    sumOf feeMsat twoTokens < 2 ^ 64 ∧
    ¬ ∀ node ∈ calculateRevenue twoTokens, TotalsAgree node := by
  refine ⟨by decide, by decide, ?_⟩
  intro agrees
  have single := agrees _ List.mem_cons_self
  exact absurd single.1 (by decide)

end results

end Lspd.Revenue
