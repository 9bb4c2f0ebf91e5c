import Lspd.Common.Intercept
import Lspd.Sorted.Matching

/-! The revenue report: forwards of our own nodes, and forwards imported from other
nodes that tell which token was used. -/

namespace Lspd.Revenue

open Lspd.Common Lspd.Lightning Lspd.Sorted Std

structure OpenChannelHtlc where
  nodeid : Bytes
  peerid : Bytes
  forwardAmountMsat : UInt64
  originalAmountMsat : UInt64
  incomingAmountMsat : UInt64
  channelPoint : OutPoint
  deriving DecidableEq

structure RevenueForward where
  identifier : String
  nodeid : Bytes
  peeridIn : Bytes
  peeridOut : Bytes
  amtMsatIn : UInt64
  amtMsatOut : UInt64
  resolvedTime : UInt64
  channelPointIn : OutPoint
  channelPointOut : OutPoint
  sendToken : Option String
  receiveToken : Option String
  openChannelHtlc : Option OpenChannelHtlc
  deriving DecidableEq

structure ExportedForward where
  token : String
  nodeId : Bytes
  externalNodeId : Bytes
  resolvedTime : Time
  direction : String
  amountMsat : UInt64

structure ImportedForward where
  nodeid : Bytes
  peerid : Bytes
  amountMsat : UInt64
  isCorrelated : Bool
  token : String
  resolvedTime : UInt64
  direction : String
  deriving DecidableEq

/-- A node, its peer and an amount. -/
abbrev Key := Bytes × Bytes × UInt64

/-- Byte strings are compared as `bytes.Compare` does. -/
def compareKeys : Key → Key → Ordering :=
  compareLex (compareOn fun key => key.1)
    (compareLex (compareOn fun key => key.2.1) (compareOn fun key => key.2.2))

instance : TransCmp compareKeys := inferInstanceAs (TransCmp (compareLex _ _))

/-- The incoming side of a forward. -/
def RevenueForward.keyIn (forward : RevenueForward) : Key :=
  (forward.nodeid, forward.peeridIn, forward.amtMsatIn)

def ImportedForward.key (imported : ImportedForward) : Key :=
  (imported.nodeid, imported.peerid, imported.amountMsat)

/-- The forwards of one file that have a token and were resolved in the range. -/
def readForwards (exported : List ExportedForward) (startNs endNs : UInt64) :
    List ImportedForward :=
  exported.filterMap fun imp =>
    let resolvedTime := UInt64.ofInt imp.resolvedTime
    if imp.token = "" then none
    else if resolvedTime < startNs ∨ resolvedTime ≥ endNs then none
    else some
      { nodeid := imp.externalNodeId
        peerid := imp.nodeId
        amountMsat := imp.amountMsat
        isCorrelated := false
        token := imp.token
        resolvedTime
        direction := imp.direction }

/-- The order imported forwards are sorted in. -/
def compareImported : ImportedForward → ImportedForward → Ordering :=
  compareLex (compareOn ImportedForward.nodeid) (compareLex (compareOn ImportedForward.peerid)
    (compareLex (compareOn ImportedForward.amountMsat) (compareOn ImportedForward.resolvedTime)))

/-- The imported forwards of some files, in a stable sort. -/
def getImportedForwards (files : List (List ExportedForward)) (startNs endNs : UInt64) :
    List ImportedForward :=
  (files.flatMap fun exported => readForwards exported startNs endNs).mergeSort
    fun first second => (compareImported first second).isLE

def firstBehind : Int := -1

def secondBehind : Int := 1

def compare (forward : RevenueForward) (importedForward : ImportedForward) : Int :=
  match Ord.compare importedForward.nodeid forward.nodeid with
  | .gt => firstBehind
  | .lt => secondBehind
  | .eq =>
    match Ord.compare importedForward.peerid forward.peeridIn with
    | .gt => firstBehind
    | .lt => secondBehind
    | .eq =>
      if importedForward.amountMsat > forward.amtMsatIn then firstBehind
      else if importedForward.amountMsat < forward.amtMsatIn then secondBehind
      else 0

/-- One pass of the loops that match imports of one direction and set a token. -/
def tokenMove (direction : String) (token : RevenueForward → Option String)
    (forward : RevenueForward) (importedForward : ImportedForward) : Move :=
  if importedForward.direction ≠ direction then .right
  else
    let behind := compare forward importedForward
    if behind = firstBehind then .left
    else if behind = secondBehind then .right
    else if token forward ≠ none then .left
    else if importedForward.isCorrelated then .right
    else .both

/-- One pass of the loop in `matchImportedForwardsSend`. -/
def sendMove : RevenueForward → ImportedForward → Move :=
  tokenMove "send" RevenueForward.sendToken

def setSendToken (forward : RevenueForward) (importedForward : ImportedForward) :
    RevenueForward × ImportedForward :=
  ({ forward with sendToken := some importedForward.token },
    { importedForward with isCorrelated := true })

/-- Both lists as the function leaves them. -/
def matchImportedForwardsSend (forwardsSortedIn : List RevenueForward)
    (importedForwards : List ImportedForward) : List RevenueForward × List ImportedForward :=
  walk sendMove setSendToken forwardsSortedIn importedForwards

section keys

theorem compareKeys_eq (one two : Key) :
    compareKeys one two = (Ord.compare one.1 two.1).then
      ((Ord.compare one.2.1 two.2.1).then (Ord.compare one.2.2 two.2.2)) := rfl

instance : LawfulEqCmp compareKeys where
  eq_of_compare := by
    intro one two same
    rw [compareKeys_eq, Ordering.then_eq_eq, Ordering.then_eq_eq] at same
    obtain ⟨node, peer, amount⟩ := same
    exact Prod.ext (LawfulEqOrd.eq_of_compare node)
      (Prod.ext (LawfulEqOrd.eq_of_compare peer) (LawfulEqOrd.eq_of_compare amount))

/-- The three answers of `compare` are those of the keys, from the other side. -/
theorem compare_eq (forward : RevenueForward) (importedForward : ImportedForward) :
    compare forward importedForward =
      match compareKeys importedForward.key forward.keyIn with
      | .gt => firstBehind
      | .lt => secondBehind
      | .eq => 0 := by
  rw [compareKeys_eq, compare]
  change _ = match (Ord.compare importedForward.nodeid forward.nodeid).then
      ((Ord.compare importedForward.peerid forward.peeridIn).then
        (Ord.compare importedForward.amountMsat forward.amtMsatIn)) with
    | .gt => firstBehind
    | .lt => secondBehind
    | .eq => 0
  cases Ord.compare importedForward.nodeid forward.nodeid with
  | lt => rfl
  | gt => rfl
  | eq =>
    cases Ord.compare importedForward.peerid forward.peeridIn with
    | lt => rfl
    | gt => rfl
    | eq =>
      cases amounts : Ord.compare importedForward.amountMsat forward.amtMsatIn with
      | lt =>
        have less := compare_eq_lt.mp amounts
        simp [less, UInt64.lt_asymm less]
      | gt => simp [compare_eq_gt.mp amounts]
      | eq => simp [compare_eq_iff_eq.mp amounts]

/-- Which cursor the loops move on is told by the keys. -/
theorem behind_eq {Choice : Type} (forward : RevenueForward) (importedForward : ImportedForward)
    (first second neither : Choice) :
    (if compare forward importedForward = firstBehind then first
      else if compare forward importedForward = secondBehind then second
      else neither) =
    match compareKeys forward.keyIn importedForward.key with
    | .lt => first
    | .gt => second
    | .eq => neither := by
  have swap : compareKeys importedForward.key forward.keyIn =
      (compareKeys forward.keyIn importedForward.key).swap := OrientedCmp.eq_swap
  rw [compare_eq, swap]
  cases compareKeys forward.keyIn importedForward.key <;> rfl

/-- What one pass can decide, and why. -/
theorem tokenMove_cases (direction : String) (token : RevenueForward → Option String)
    (forward : RevenueForward) (imported : ImportedForward) :
    tokenMove direction token forward imported = .left ∧
        (token forward ≠ none ∧ forward.keyIn = imported.key ∨
          compareKeys forward.keyIn imported.key = .lt) ∨
      tokenMove direction token forward imported = .right ∧
        (imported.direction ≠ direction ∨ imported.isCorrelated = true ∨
          compareKeys imported.key forward.keyIn = .lt) ∨
      tokenMove direction token forward imported = .both ∧ token forward = none ∧
        imported.direction = direction ∧ imported.isCorrelated = false ∧
        forward.keyIn = imported.key := by
  simp only [tokenMove, behind_eq]
  by_cases same : imported.direction = direction
  · cases keys : compareKeys forward.keyIn imported.key with
    | lt => simp [same]
    | gt => simp [same, OrientedCmp.gt_iff_lt.mp keys]
    | eq =>
      have equal := LawfulEqCmp.eq_of_compare keys
      cases own : token forward <;> cases correlated : imported.isCorrelated <;>
        simp [same, equal]
  · simp [same]

/-- The cursor of the forwards stays until it has come up to the import. -/
theorem tokenMove_level {direction : String} {token : RevenueForward → Option String}
    (forward : RevenueForward) (imported : ImportedForward)
    (move : tokenMove direction token forward imported = .left) :
    (compareKeys forward.keyIn imported.key).isLE := by
  rcases tokenMove_cases direction token forward imported with ⟨_, why⟩ | ⟨other, _⟩ | ⟨other, _⟩
  · rcases why with ⟨_, same⟩ | before
    · exact same ▸ ReflCmp.isLE_rfl
    · rw [before]
      rfl
  · cases move.symm.trans other
  · cases move.symm.trans other

theorem tokenMove_justified (direction : String) (token : RevenueForward → Option String) :
    Justified (tokenMove direction token) compareKeys RevenueForward.keyIn ImportedForward.key
      (fun forward => token forward = none)
      (fun imported => imported.direction = direction && !imported.isCorrelated) where
  left forward imported move := by
    rcases tokenMove_cases direction token forward imported with ⟨_, why⟩ | ⟨other, _⟩ | ⟨other, _⟩
    · rcases why with ⟨taken, _⟩ | before
      · simp [taken]
      · exact .inr before
    · cases move.symm.trans other
    · cases move.symm.trans other
  right forward imported move := by
    rcases tokenMove_cases direction token forward imported with ⟨other, _⟩ | ⟨_, why⟩ | ⟨other, _⟩
    · cases move.symm.trans other
    · rcases why with different | correlated | before
      · simp [different]
      · simp [correlated]
      · exact .inr before
    · cases move.symm.trans other
  both forward imported move := by
    rcases tokenMove_cases direction token forward imported with ⟨other, _⟩ | ⟨other, _⟩ | ⟨_, why⟩
    · cases move.symm.trans other
    · cases move.symm.trans other
    · obtain ⟨free, same, unused, equal⟩ := why
      simp [free, same, unused, equal]

/-- What the entries at hand are like when they are matched. -/
theorem tokenMove_both {direction : String} {token : RevenueForward → Option String}
    {forward : RevenueForward} {imported : ImportedForward}
    (move : tokenMove direction token forward imported = .both) :
    token forward = none ∧ imported.direction = direction ∧ imported.isCorrelated = false ∧
      forward.keyIn = imported.key := by
  rcases tokenMove_cases direction token forward imported with ⟨other, _⟩ | ⟨other, _⟩ | ⟨_, why⟩
  · cases move.symm.trans other
  · cases move.symm.trans other
  · exact why

theorem sendMove_justified : Justified sendMove compareKeys RevenueForward.keyIn ImportedForward.key
    (fun forward => forward.sendToken = none)
    (fun imported => imported.direction = "send" && !imported.isCorrelated) :=
  tokenMove_justified "send" RevenueForward.sendToken

end keys

section imports

theorem compareImported_eq (first second : ImportedForward) :
    compareImported first second = (compareKeys first.key second.key).then
      (Ord.compare first.resolvedTime second.resolvedTime) := by
  rw [compareKeys_eq, Ordering.then_assoc, Ordering.then_assoc]
  rfl

instance : TransCmp compareImported := inferInstanceAs (TransCmp (compareLex _ _))

/-- The imported forwards are in the order the loops expect. -/
theorem getImportedForwards_sorted (files : List (List ExportedForward)) (startNs endNs : UInt64) :
    (getImportedForwards files startNs endNs).Pairwise
      fun one two => (compareKeys one.key two.key).isLE := by
  have total : ∀ one two : ImportedForward,
      (compareImported one two).isLE || (compareImported two one).isLE := by
    intro one two
    have swap : compareImported two one = (compareImported one two).swap := OrientedCmp.eq_swap
    rw [swap]
    cases compareImported one two <;> rfl
  have sorted := List.pairwise_mergeSort (fun _ _ _ => TransCmp.isLE_trans) total
    (files.flatMap fun exported => readForwards exported startNs endNs)
  refine sorted.imp ?_
  intro one two before
  rw [compareImported_eq] at before
  cases keys : compareKeys one.key two.key with
  | lt => rfl
  | eq => rfl
  | gt => rw [keys] at before; exact before

theorem getImportedForwards_unused (files : List (List ExportedForward)) (startNs endNs : UInt64)
    {source : ImportedForward} (member : source ∈ getImportedForwards files startNs endNs) :
    source.isCorrelated = false := by
  obtain ⟨exported, _, among⟩ := List.mem_flatMap.mp (List.mem_mergeSort.mp member)
  obtain ⟨imp, _, made⟩ := List.mem_filterMap.mp among
  split at made
  · cases made
  · dsimp only at made
    split at made
    · cases made
    · cases made
      rfl

end imports

section results

variable {forwards : List RevenueForward} {imported : List ImportedForward}

/-- Which forwards got the token of which imported ones. Each pair has the positions
of a forward without a token and of an unused import of a sender with the same key;
everything at other positions is as before. -/
structure SendTokensSet (forwards : List RevenueForward) (imported : List ImportedForward)
    (after : List RevenueForward × List ImportedForward) (pairs : List (Nat × Nat)) : Prop where
  once : pairs.Pairwise fun one two => one.1 < two.1 ∧ one.2 < two.2
  matched : ∀ pair ∈ pairs, ∃ forward source, forwards[pair.1]? = some forward ∧
    imported[pair.2]? = some source ∧ forward.sendToken = none ∧ source.direction = "send" ∧
    source.isCorrelated = false ∧ forward.keyIn = source.key ∧
    after.1[pair.1]? = some { forward with sendToken := some source.token } ∧
    after.2[pair.2]? = some { source with isCorrelated := true }
  forwards : ∀ index, index ∉ pairs.map Prod.fst → after.1[index]? = forwards[index]?
  imported : ∀ index, index ∉ pairs.map Prod.snd → after.2[index]? = imported[index]?

theorem exists_sendTokensSet (forwards : List RevenueForward) (imported : List ImportedForward) :
    ∃ pairs, SendTokensSet forwards imported (matchImportedForwardsSend forwards imported) pairs := by
  obtain ⟨pairs, matching⟩ : ∃ pairs, Matching sendMove setSendToken forwards imported _ pairs :=
    exists_matching forwards imported
  refine ⟨pairs, matching.increasing, ?_, matching.lefts, matching.rights⟩
  intro pair member
  obtain ⟨forward, source, left, right, move, newLeft, newRight⟩ := matching.joined pair member
  obtain ⟨token, direction, free, same⟩ := tokenMove_both move
  exact ⟨forward, source, left, right, token, direction, free, same, newLeft, newRight⟩

/-- Forwards that have a token keep it. -/
theorem SendTokensSet.kept {after : List RevenueForward × List ImportedForward}
    {pairs : List (Nat × Nat)} (set : SendTokensSet forwards imported after pairs) {index : Nat}
    {forward : RevenueForward} (here : forwards[index]? = some forward)
    (token : forward.sendToken ≠ none) : after.1[index]? = some forward := by
  rw [← here]
  apply set.forwards
  intro member
  obtain ⟨pair, among, rfl⟩ := List.mem_map.mp member
  obtain ⟨other, _, found, _, free, _⟩ := set.matched pair among
  obtain rfl := Option.some.inj (here.symm.trans found)
  exact token free

/-- Imports of receivers are not touched. -/
theorem SendTokensSet.received {after : List RevenueForward × List ImportedForward}
    {pairs : List (Nat × Nat)} (set : SendTokensSet forwards imported after pairs) {index : Nat}
    {source : ImportedForward} (here : imported[index]? = some source)
    (direction : source.direction ≠ "send") : after.2[index]? = some source := by
  rw [← here]
  apply set.imported
  intro member
  obtain ⟨pair, among, rfl⟩ := List.mem_map.mp member
  obtain ⟨_, other, _, found, _, send, _⟩ := set.matched pair among
  obtain rfl := Option.some.inj (here.symm.trans found)
  exact direction send

/-- A forward that had no token has one now. -/
def newToken (old new : RevenueForward) : Bool := old.sendToken = none ∧ new.sendToken ≠ none

/-- How many forwards with a key have a token they did not have before. -/
def newlySent (key : Key) (before after : List RevenueForward) : Nat :=
  (before.zip after).countP fun pair => newToken pair.1 pair.2 ∧ pair.1.keyIn = key

theorem newlySent_eq (key : Key) (before after : List RevenueForward) :
    newlySent key before after = freshWith RevenueForward.keyIn newToken key before after := by
  simp [newlySent, freshWith]

theorem newToken_self (forward : RevenueForward) : newToken forward forward = false := by
  simp [newToken]

theorem newToken_setSendToken (forward : RevenueForward) (source : ImportedForward)
    (move : sendMove forward source = .both) :
    newToken forward (setSendToken forward source).1 = true := by
  obtain ⟨token, _⟩ := sendMove_justified.both forward source move
  simpa [newToken, setSendToken] using token

theorem unused_send {imported : List ImportedForward} (key : Key)
    (unused : ∀ source ∈ imported, source.isCorrelated = false) :
    freeWith ImportedForward.key (fun source => source.direction = "send" && !source.isCorrelated)
      key imported =
    imported.countP fun source => source.direction = "send" ∧ source.key = key := by
  refine List.countP_congr ?_
  intro source member
  simp [unused source member]

/-- Over sorted lists and unused imports, as many forwards of each key get a token as
there are forwards without one and imports of senders to match, and nothing else changes. -/
theorem matchImportedForwardsSend_maximal (forwards : List RevenueForward)
    (imported : List ImportedForward)
    (sortedIn : forwards.Pairwise fun one two => (compareKeys one.keyIn two.keyIn).isLE)
    (sorted : imported.Pairwise fun one two => (compareKeys one.key two.key).isLE)
    (unused : ∀ source ∈ imported, source.isCorrelated = false) :
    (∀ key, newlySent key forwards (matchImportedForwardsSend forwards imported).1 =
      min (forwards.countP fun forward => forward.sendToken = none ∧ forward.keyIn = key)
        (imported.countP fun source => source.direction = "send" ∧ source.key = key)) ∧
    (∃ pairs, SendTokensSet forwards imported (matchImportedForwardsSend forwards imported) pairs) ∧
    (∀ (index : Nat) (forward : RevenueForward), forwards[index]? = some forward →
      forward.sendToken ≠ none →
      (matchImportedForwardsSend forwards imported).1[index]? = some forward) ∧
    ∀ (index : Nat) (source : ImportedForward), imported[index]? = some source →
      source.direction ≠ "send" →
      (matchImportedForwardsSend forwards imported).2[index]? = some source := by
  obtain ⟨pairs, set⟩ := exists_sendTokensSet forwards imported
  refine ⟨?_, ⟨pairs, set⟩, fun index forward => set.kept, fun index source => set.received⟩
  intro key
  have counts := freshWith_walk sendMove setSendToken sendMove_justified newToken_self
    newToken_setSendToken key sortedIn sorted
  rw [unused_send key unused] at counts
  rw [newlySent_eq, matchImportedForwardsSend, counts]
  simp [freeWith]

def samplePoint (byte : UInt8) : OutPoint :=
  ⟨⟨List.replicate 32 byte, List.length_replicate⟩, 0⟩

def sampleForward (amount : UInt64) (token : Option String) : RevenueForward where
  identifier := "0"
  nodeid := [2]
  peeridIn := [3]
  peeridOut := [4]
  amtMsatIn := amount
  amtMsatOut := amount
  resolvedTime := 1
  channelPointIn := samplePoint 1
  channelPointOut := samplePoint 2
  sendToken := token
  receiveToken := none
  openChannelHtlc := none

private def sampleImport (amount : UInt64) (direction : String) : ImportedForward where
  nodeid := [2]
  peerid := [3]
  amountMsat := amount
  isCorrelated := false
  token := "exported"
  resolvedTime := 1
  direction

/-- Three forwards of one key, of which one has a token. -/
private def sampleForwards : List RevenueForward :=
  [sampleForward 10 none, sampleForward 10 (some "own"), sampleForward 10 none,
    sampleForward 20 none]

private def sampleImports : List ImportedForward :=
  [sampleImport 10 "receive", sampleImport 10 "send", sampleImport 20 "receive",
    sampleImport 30 "send"]

/-- One import of a sender for the two forwards without a token. -/
theorem matchImportedForwardsSend_maximal_sample :
    newlySent ([2], [3], 10) sampleForwards
      (matchImportedForwardsSend sampleForwards sampleImports).1 = 1 := by
  have maximal := matchImportedForwardsSend_maximal sampleForwards sampleImports (by decide)
    (by decide) (by decide)
  rw [maximal.1]
  decide

end results

end Lspd.Revenue
