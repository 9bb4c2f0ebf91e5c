import Mathlib.Logic.Function.Basic
import Lspd.Process.Machine
import Lspd.Revenue.Receivers
import Lspd.Sorted.Leaders

/-! Tokens between our own nodes. Both sorted lists point to the same records, which are
changed while they are matched, and a pass over the lists is repeated. -/

namespace Lspd.Revenue

open Lspd.Lightning Lspd.Process Lspd.Sorted Std

variable {n : Nat}

/-- The records that the lists point to. -/
abbrev Records (n : Nat) := Fin n → RevenueForward

/-- One look at the two forwards at hand: `left` moves on in the list sorted by the incoming
side, `right` in the other one. -/
def internalMove (inForward outForward : RevenueForward) : Move :=
  let behind := compare outForward
    { nodeid := inForward.peeridIn
      peerid := inForward.nodeid
      amountMsat := inForward.amtMsatIn
      isCorrelated := false
      token := ""
      resolvedTime := inForward.resolvedTime
      direction := "" }
  if behind = firstBehind then .right
  else if behind = secondBehind then .left
  else if outForward.receiveToken ≠ none then .right
  else if inForward.sendToken ≠ none then .left
  else .both

/-- The two assignments, one after the other. -/
def setTokens (forwards : Records n) (inForward outForward : Fin n) : Records n :=
  let sent := Function.update forwards inForward
    { forwards inForward with sendToken := (forwards outForward).sendToken }
  Function.update sent outForward
    { sent outForward with receiveToken := (sent inForward).sendToken }

/-- The records as one pass leaves them. -/
def matchInternalForwards (forwards : Records n) :
    List (Fin n) → List (Fin n) → Records n
  | [], _ => forwards
  | _ :: _, [] => forwards
  | inForward :: ins, outForward :: outs =>
    match internalMove (forwards inForward) (forwards outForward) with
    | .left => matchInternalForwards forwards ins (outForward :: outs)
    | .right => matchInternalForwards forwards (inForward :: ins) outs
    | .both => matchInternalForwards (setTokens forwards inForward outForward) ins outs
termination_by ins outs => ins.length + outs.length

/-- A pass with what is still ahead of its cursors. -/
structure Pass (n : Nat) where
  forwards : Records n
  ins : List (Fin n)
  outs : List (Fin n)

/-- One turn of the loop. -/
def Pass.look (pass : Pass n) : Option (Pass n) :=
  match pass.ins, pass.outs with
  | inForward :: ins, outForward :: outs =>
    match internalMove (pass.forwards inForward) (pass.forwards outForward) with
    | .left => some { pass with ins }
    | .right => some { pass with outs }
    | .both => some ⟨setTokens pass.forwards inForward outForward, ins, outs⟩
  | _, _ => none

inductive PassAction where
  | look
  | again

/-- Passes over two lists of pointers, any number of them. -/
def passes (forwards : Records n) (forwardsSortedIn forwardsSortedOut : List (Fin n)) :
    Machine (Pass n) PassAction where
  Initial pass := pass = ⟨forwards, forwardsSortedIn, forwardsSortedOut⟩
  Step pass
    | .look, later => pass.look = some later
    | .again, later => pass.look = none ∧
        later = ⟨pass.forwards, forwardsSortedIn, forwardsSortedOut⟩

section looks

variable {forwards : Records n} {inForward outForward : RevenueForward}

/-- What the two forwards are like whose tokens are set. -/
theorem internalMove_both (move : internalMove inForward outForward = .both) :
    outForward.keyIn = (inForward.peeridIn, inForward.nodeid, inForward.amtMsatIn) ∧
      outForward.receiveToken = none ∧ inForward.sendToken = none := by
  simp only [internalMove, behind_eq, ImportedForward.key] at move
  cases keys : compareKeys outForward.keyIn
      (inForward.peeridIn, inForward.nodeid, inForward.amtMsatIn) with
  | lt => simp [keys] at move
  | gt => simp [keys] at move
  | eq =>
    refine ⟨LawfulEqCmp.eq_of_compare keys, ?_⟩
    simp only [keys] at move
    cases received : outForward.receiveToken <;> cases sent : inForward.sendToken <;>
      simp [received, sent] at move ⊢

theorem sendToken_setTokens (forwards : Records n) (inForward outForward position : Fin n) :
    (setTokens forwards inForward outForward position).sendToken =
      if position = inForward then (forwards outForward).sendToken
      else (forwards position).sendToken := by
  simp only [setTokens, Function.update_apply]
  split <;> split <;> simp_all

theorem receiveToken_setTokens (forwards : Records n) (inForward outForward position : Fin n) :
    (setTokens forwards inForward outForward position).receiveToken =
      if position = outForward then (forwards outForward).sendToken
      else (forwards position).receiveToken := by
  simp only [setTokens, Function.update_apply]
  split <;> split <;> simp_all

/-- What one turn can do. -/
theorem look_cases {pass later : Pass n} (step : pass.look = some later) :
    later.forwards = pass.forwards ∨
      ∃ inForward outForward ins outs, pass.ins = inForward :: ins ∧
        pass.outs = outForward :: outs ∧
        internalMove (pass.forwards inForward) (pass.forwards outForward) = .both ∧
        later = ⟨setTokens pass.forwards inForward outForward, ins, outs⟩ := by
  obtain ⟨forwards, ins, outs⟩ := pass
  cases ins with
  | nil => cases step
  | cons inForward ins =>
    cases outs with
    | nil => cases step
    | cons outForward outs =>
      simp only [Pass.look] at step
      cases move : internalMove (forwards inForward) (forwards outForward) with
      | left =>
        rw [move] at step
        exact .inl (Option.some.inj step ▸ rfl)
      | right =>
        rw [move] at step
        exact .inl (Option.some.inj step ▸ rfl)
      | both =>
        rw [move] at step
        exact .inr ⟨inForward, outForward, ins, outs, rfl, rfl, move, (Option.some.inj step).symm⟩

end looks

section functions

variable {sortedIn sortedOut : List (Fin n)}

/-- A pass of the function is a run of turns up to the end of a list. -/
theorem reaches_matchInternalForwards (initial forwards : Records n) (ins outs : List (Fin n)) :
    ∃ finished : Pass n, finished.look = none ∧
      finished.forwards = matchInternalForwards forwards ins outs ∧
      (passes initial sortedIn sortedOut).Reaches ⟨forwards, ins, outs⟩ finished := by
  fun_induction matchInternalForwards forwards ins outs with
  | case1 forwards outs => exact ⟨⟨forwards, [], outs⟩, rfl, rfl, .refl⟩
  | case2 forwards inForward ins => exact ⟨⟨forwards, inForward :: ins, []⟩, rfl, rfl, .refl⟩
  | case3 forwards inForward ins outForward outs move ih =>
    obtain ⟨finished, ended, same, run⟩ := ih
    refine ⟨finished, ended, same, .head ⟨.look, trivial, ?_⟩ run⟩
    simp [passes, Pass.look, move]
  | case4 forwards inForward ins outForward outs move ih =>
    obtain ⟨finished, ended, same, run⟩ := ih
    refine ⟨finished, ended, same, .head ⟨.look, trivial, ?_⟩ run⟩
    simp [passes, Pass.look, move]
  | case5 forwards inForward ins outForward outs move ih =>
    obtain ⟨finished, ended, same, run⟩ := ih
    refine ⟨finished, ended, same, .head ⟨.look, trivial, ?_⟩ run⟩
    simp [passes, Pass.look, move]

/-- Whatever the number of calls, their records are those of a run. -/
theorem reachable_calls (forwards : Records n) (sortedIn sortedOut : List (Fin n)) (calls : Nat) :
    (passes forwards sortedIn sortedOut).Reachable
      ⟨(fun records => matchInternalForwards records sortedIn sortedOut)^[calls] forwards,
        sortedIn, sortedOut⟩ := by
  induction calls with
  | zero => exact .start rfl
  | succ calls ih =>
    obtain ⟨finished, ended, same, run⟩ := reaches_matchInternalForwards forwards _ sortedIn sortedOut
    rw [Function.iterate_succ_apply', ← same]
    have again : (passes forwards sortedIn sortedOut).Step finished .again
        ⟨finished.forwards, sortedIn, sortedOut⟩ := ⟨ended, rfl⟩
    exact (ih.trans run).step again

end functions

section hops

/-- A payment goes from the first forward to the second one, on the next node. -/
def Hop (previous next : RevenueForward) : Prop :=
  previous.nodeid = next.peeridIn ∧ previous.peeridOut = next.nodeid ∧
    previous.amtMsatOut = next.amtMsatIn

instance (previous next : RevenueForward) : Decidable (Hop previous next) :=
  inferInstanceAs (Decidable (_ ∧ _ ∧ _))

/-- Tokens that are set stay. -/
structure TokensKept (earlier later : Records n) : Prop where
  sendKept : ∀ position, (earlier position).sendToken ≠ none →
    (later position).sendToken = (earlier position).sendToken
  receiveKept : ∀ position, (earlier position).receiveToken ≠ none →
    (later position).receiveToken = (earlier position).receiveToken

/-- The tokens that a step has set come from the records before it: those of senders from
a forward before, those of recipients from a forward behind. -/
structure TokensFollow (earlier later : Records n) : Prop
    extends TokensKept earlier later where
  sent : ∀ position token, (earlier position).sendToken = none →
    (later position).sendToken = some token →
    ∃ previous, Hop (earlier previous) (earlier position) ∧
      (earlier previous).sendToken = some token
  received : ∀ position token, (earlier position).receiveToken = none →
    (later position).receiveToken = some token →
    ∃ next, Hop (earlier position) (earlier next) ∧ (earlier next).receiveToken = some token

/-- The tokens of all records. -/
structure Tokens (n : Nat) where
  send : Fin n → Option String
  receive : Fin n → Option String

/-- What becomes of the tokens when an in-forward and an out-forward are joined. -/
def Tokens.join (tokens : Tokens n) (pair : Fin n × Fin n) : Tokens n where
  send := Function.update tokens.send pair.1 (tokens.send pair.2)
  receive := Function.update tokens.receive pair.2 (tokens.send pair.2)

section keys

/-- What a turn compares: the two nodes and the amount, and behind them whether the forward
has its token already. -/
abbrev TurnKey := Bytes × Bytes × UInt64 × Nat

def compareTurns : TurnKey → TurnKey → Ordering :=
  compareLex (compareOn fun key => key.1) (compareLex (compareOn fun key => key.2.1)
    (compareLex (compareOn fun key => key.2.2.1) (compareOn fun key => key.2.2.2)))

def RevenueForward.inTurn (forward : RevenueForward) : TurnKey :=
  (forward.peeridIn, forward.nodeid, forward.amtMsatIn, if forward.sendToken = none then 2 else 1)

def RevenueForward.outTurn (forward : RevenueForward) : TurnKey :=
  (forward.nodeid, forward.peeridIn, forward.amtMsatIn,
    if forward.receiveToken = none then 2 else 0)

end keys

section turns

instance : TransCmp compareTurns := inferInstanceAs (TransCmp (compareLex _ _))

theorem compareTurns_eq (one two : TurnKey) :
    compareTurns one two =
      (compareKeys (one.1, one.2.1, one.2.2.1) (two.1, two.2.1, two.2.2.1)).then
        (Ord.compare one.2.2.2 two.2.2.2) := by
  rw [compareKeys_eq, Ordering.then_assoc, Ordering.then_assoc]
  rfl

instance : LawfulEqCmp compareTurns where
  eq_of_compare := by
    intro one two same
    rw [compareTurns_eq, Ordering.then_eq_eq] at same
    have keys := LawfulEqCmp.eq_of_compare same.1
    simp only [Prod.mk.injEq] at keys
    exact Prod.ext keys.1 (Prod.ext keys.2.1 (Prod.ext keys.2.2 (LawfulEqOrd.eq_of_compare same.2)))

/-- Which cursor moves on is told by the two forwards as they are compared. -/
theorem internalMove_eq (inForward outForward : RevenueForward) :
    internalMove inForward outForward =
      moveOf (compareTurns inForward.inTurn outForward.outTurn) := by
  have swap : compareKeys (inForward.peeridIn, inForward.nodeid, inForward.amtMsatIn)
      outForward.keyIn = (compareKeys outForward.keyIn
        (inForward.peeridIn, inForward.nodeid, inForward.amtMsatIn)).swap := OrientedCmp.eq_swap
  rw [compareTurns_eq]
  simp only [internalMove, behind_eq, ImportedForward.key]
  change _ = moveOf ((compareKeys (inForward.peeridIn, inForward.nodeid, inForward.amtMsatIn)
    outForward.keyIn).then (Ord.compare (if inForward.sendToken = none then 2 else 1)
      (if outForward.receiveToken = none then 2 else 0)))
  rw [swap]
  cases compareKeys outForward.keyIn
      (inForward.peeridIn, inForward.nodeid, inForward.amtMsatIn) with
  | lt => rfl
  | gt => rfl
  | eq =>
    cases inForward.sendToken <;> cases outForward.receiveToken <;> rfl

end turns

section steps

variable {forwards records : Records n} {inForward outForward : Fin n}

theorem TokensFollow.refl (forwards : Records n) : TokensFollow forwards forwards where
  sendKept _ _ := rfl
  receiveKept _ _ := rfl
  sent _ _ none some := by cases none.symm.trans some
  received _ _ none some := by cases none.symm.trans some

theorem setTokens_only (forwards : Records n) (inForward outForward position : Fin n) :
    setTokens forwards inForward outForward position = { forwards position with
      sendToken := (setTokens forwards inForward outForward position).sendToken
      receiveToken := (setTokens forwards inForward outForward position).receiveToken } := by
  simp only [setTokens, Function.update_apply]
  split <;> split <;> simp_all

/-- The records in the middle of a pass differ from those at its start in tokens only, and
not in those that the cursors are still to look at. -/
structure Ahead (forwards records : Records n) (ins outs : List (Fin n)) : Prop where
  only : ∀ position, records position = { forwards position with
    sendToken := (records position).sendToken, receiveToken := (records position).receiveToken }
  unsent : ∀ position ∈ ins, (records position).sendToken = (forwards position).sendToken
  unreceived : ∀ position ∈ outs,
    (records position).receiveToken = (forwards position).receiveToken

variable {ins outs : List (Fin n)}

theorem Ahead.move (ahead : Ahead forwards records (inForward :: ins) (outForward :: outs)) :
    internalMove (records inForward) (records outForward) =
      internalMove (forwards inForward) (forwards outForward) := by
  have sent : (records inForward).inTurn = (forwards inForward).inTurn := by
    rw [ahead.only inForward, ahead.unsent inForward List.mem_cons_self]
    rfl
  have received : (records outForward).outTurn = (forwards outForward).outTurn := by
    rw [ahead.only outForward, ahead.unreceived outForward List.mem_cons_self]
    rfl
  rw [internalMove_eq, internalMove_eq, sent, received]

theorem Ahead.mono (ahead : Ahead forwards records ins outs) {fewerIns fewerOuts : List (Fin n)}
    (left : fewerIns ⊆ ins) (right : fewerOuts ⊆ outs) :
    Ahead forwards records fewerIns fewerOuts :=
  ⟨ahead.only, fun position member => ahead.unsent position (left member),
    fun position member => ahead.unreceived position (right member)⟩

theorem Ahead.setTokens (ahead : Ahead forwards records (inForward :: ins) (outForward :: outs))
    (onceIn : inForward ∉ ins) (onceOut : outForward ∉ outs) :
    Ahead forwards (setTokens records inForward outForward) ins outs := by
  constructor
  · intro position
    rw [setTokens_only records inForward outForward position, ahead.only position]
  · intro position member
    have other : position ≠ inForward := fun same => onceIn (same ▸ member)
    rw [sendToken_setTokens, if_neg other]
    exact ahead.unsent position (List.mem_cons_of_mem _ member)
  · intro position member
    have other : position ≠ outForward := fun same => onceOut (same ▸ member)
    rw [receiveToken_setTokens, if_neg other]
    exact ahead.unreceived position (List.mem_cons_of_mem _ member)

end steps

section runs

variable {forwards : Records n} {sortedIn sortedOut : List (Fin n)}

private def hopForward (nodeid peeridIn peeridOut : Bytes) (amtMsatOut : UInt64)
    (send receive : Option String) : RevenueForward :=
  { sampleForward 100 send with nodeid, peeridIn, peeridOut, amtMsatOut, receiveToken := receive }

/-- A payment that node 2 sends back to node 1, where the recipient's token is known. -/
private def returning : Records 2 := fun position =>
  if position = 0 then hopForward [1] [2] [5] 90 none (some "token")
  else hopForward [2] [1] [1] 100 (some "token") none

end runs

end hops

end Lspd.Revenue
