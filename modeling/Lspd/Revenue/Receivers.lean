import Lspd.Revenue.Imports

/-! The tokens of recipients: imports of receivers are matched to forwards that are
sorted by their outgoing side. The loop looks at the incoming side of the forwards. -/

namespace Lspd.Revenue

open Lspd.Common Lspd.Lightning Lspd.Sorted Std

/-- The outgoing side of a forward. -/
def RevenueForward.keyOut (forward : RevenueForward) : Key :=
  (forward.nodeid, forward.peeridOut, forward.amtMsatOut)

/-- One pass of the loop in `matchImportedForwardsReceive`. -/
def receiveMove : RevenueForward → ImportedForward → Move :=
  tokenMove "receive" RevenueForward.receiveToken

def setReceiveToken (forward : RevenueForward) (importedForward : ImportedForward) :
    RevenueForward × ImportedForward :=
  ({ forward with receiveToken := some importedForward.token },
    { importedForward with isCorrelated := true })

/-- Both lists as the function leaves them. -/
def matchImportedForwardsReceive (forwardsSortedOut : List RevenueForward)
    (importedForwards : List ImportedForward) : List RevenueForward × List ImportedForward :=
  walk receiveMove setReceiveToken forwardsSortedOut importedForwards

/-- A forward without a token and an unused import of a receiver with the key of its
outgoing side. -/
def ReceivedFrom (forward : RevenueForward) (source : ImportedForward) : Prop :=
  forward.receiveToken = none ∧ source.direction = "receive" ∧ source.isCorrelated = false ∧
    forward.keyOut = source.key

/-- A forward that had no token has one now. -/
def newReceiveToken (old new : RevenueForward) : Bool :=
  old.receiveToken = none ∧ new.receiveToken ≠ none

/-- How many forwards that go out with a key have a token they did not have before. -/
def newlyReceived (key : Key) (before after : List RevenueForward) : Nat :=
  (before.zip after).countP fun pair => newReceiveToken pair.1 pair.2 ∧ pair.1.keyOut = key

/-- How many unused imports of receivers there are with a key. -/
def unusedReceived (key : Key) (imported : List ImportedForward) : Nat :=
  imported.countP fun source =>
    source.direction = "receive" ∧ source.isCorrelated = false ∧ source.key = key

/-- How many forwards without a token go out with a key. -/
def awaiting (key : Key) (forwards : List RevenueForward) : Nat :=
  forwards.countP fun forward => forward.receiveToken = none ∧ forward.keyOut = key

/-- As many forwards of each key get a token as there are forwards and imports to match,
each from an import of its own. -/
structure ReceivedMaximally (forwards : List RevenueForward) (imported : List ImportedForward) :
    Prop where
  counts : ∀ key, newlyReceived key forwards (matchImportedForwardsReceive forwards imported).1 =
    min (awaiting key forwards) (unusedReceived key imported)
  pairs : ∃ pairs, Joined ReceivedFrom setReceiveToken forwards imported
    (matchImportedForwardsReceive forwards imported) pairs

/-- The forwards without a token that come in with a key, in front of the first forward
that comes in with a greater one. -/
def comingIn (key : Key) (forwards : List RevenueForward) : List RevenueForward :=
  (forwards.takeWhile fun forward => (compareKeys forward.keyIn key).isLE).filter
    fun forward => forward.receiveToken = none ∧ forward.keyIn = key

/-- The forwards the imports of a key are used up on all go out with the key, and they are
as many as there should be. -/
def ReturnedOnly (key : Key) (forwards : List RevenueForward) (imported : List ImportedForward) :
    Prop :=
  (∀ forward ∈ (comingIn key forwards).take (unusedReceived key imported), forward.keyOut = key) ∧
    min (comingIn key forwards).length (unusedReceived key imported) =
      min (awaiting key forwards) (unusedReceived key imported)

section proofs

variable {forwards : List RevenueForward} {imported : List ImportedForward}

theorem newReceiveToken_self (forward : RevenueForward) :
    newReceiveToken forward forward = false := by
  simp [newReceiveToken]

theorem newReceiveToken_set (forward : RevenueForward) (source : ImportedForward)
    (move : receiveMove forward source = .both) :
    newReceiveToken forward (setReceiveToken forward source).1 = true := by
  obtain ⟨free, _⟩ := tokenMove_both move
  simp [newReceiveToken, setReceiveToken, free]

/-- The forwards of an incoming key that get a token. -/
theorem freshEntries_receive (key : Key)
    (sorted : imported.Pairwise fun one two => (compareKeys one.key two.key).isLE) :
    freshEntries RevenueForward.keyIn newReceiveToken key forwards
      (matchImportedForwardsReceive forwards imported).1 =
    (comingIn key forwards).take (unusedReceived key imported) := by
  have joined := freshEntries_walk receiveMove setReceiveToken
    (tokenMove_justified "receive" RevenueForward.receiveToken) tokenMove_level
    newReceiveToken_self newReceiveToken_set key forwards sorted
  have reached : reachable compareKeys RevenueForward.keyIn
      (fun forward => decide (forward.receiveToken = none)) key forwards = comingIn key forwards := by
    simp [reachable, comingIn]
  have unused : freeWith ImportedForward.key
      (fun source => decide (source.direction = "receive") && !source.isCorrelated) key imported =
      unusedReceived key imported := by
    simp [freeWith, unusedReceived, Bool.and_assoc]
  rw [matchImportedForwardsReceive, joined, reached, unused]

theorem exists_joined (forwards : List RevenueForward) (imported : List ImportedForward) :
    ∃ pairs, Joined (fun forward source => receiveMove forward source = .both) setReceiveToken
      forwards imported (matchImportedForwardsReceive forwards imported) pairs := by
  obtain ⟨pairs, matching⟩ : ∃ pairs, Matching receiveMove setReceiveToken forwards imported
    (matchImportedForwardsReceive forwards imported) pairs := exists_matching forwards imported
  exact ⟨pairs, matching.toJoined⟩

/-- The imports are those of the outgoing sides if and only if all forwards that get a
token go out with the key they come in with. -/
theorem joined_received_iff :
    (∃ pairs, Joined ReceivedFrom setReceiveToken forwards imported
      (matchImportedForwardsReceive forwards imported) pairs) ↔
    ∀ key, ∀ forward ∈ freshEntries RevenueForward.keyIn newReceiveToken key forwards
      (matchImportedForwardsReceive forwards imported).1, forward.keyOut = key := by
  obtain ⟨pairs, joined⟩ := exists_joined forwards imported
  have fresh (key : Key) (forward : RevenueForward) :
      forward ∈ freshEntries RevenueForward.keyIn newReceiveToken key forwards
        (matchImportedForwardsReceive forwards imported).1 ↔
      ∃ pair ∈ pairs, forwards[pair.1]? = some forward ∧ forward.keyIn = key :=
    mem_freshEntries_iff setReceiveToken joined newReceiveToken_self newReceiveToken_set
  constructor
  · rintro ⟨others, received⟩ key forward member
    have changes : ∀ forward source, receiveMove forward source = .both ∨
        ReceivedFrom forward source →
        (setReceiveToken forward source).1 ≠ forward ∧
          (setReceiveToken forward source).2 ≠ source := by
      intro forward source related
      have free : forward.receiveToken = none ∧ source.isCorrelated = false := by
        rcases related with move | ⟨free, _, unused, _⟩
        · obtain ⟨free, _, unused, _⟩ := tokenMove_both move
          exact ⟨free, unused⟩
        · exact ⟨free, unused⟩
      constructor
      · intro same
        cases free.1.symm.trans (congrArg RevenueForward.receiveToken same).symm
      · intro same
        cases free.2.symm.trans (congrArg ImportedForward.isCorrelated same).symm
    obtain rfl := joined.unique received changes
    obtain ⟨pair, among, here, comes⟩ := (fresh key forward).mp member
    obtain ⟨one, source, left, right, move, _⟩ := joined.joined pair among
    obtain ⟨two, again, otherLeft, otherRight, ⟨_, _, _, goes⟩, _⟩ := received.joined pair among
    obtain rfl := Option.some.inj (here.symm.trans left)
    obtain rfl := Option.some.inj (here.symm.trans otherLeft)
    obtain rfl := Option.some.inj (right.symm.trans otherRight)
    obtain ⟨_, _, _, same⟩ := tokenMove_both move
    rw [goes, ← same, comes]
  · intro returned
    refine ⟨pairs, joined.imp ?_⟩
    intro pair member forward source left right move
    obtain ⟨free, direction, unused, same⟩ := tokenMove_both move
    refine ⟨free, direction, unused, ?_⟩
    rw [← same]
    exact returned _ forward ((fresh _ forward).mpr ⟨pair, member, left, rfl⟩)

/-- Where the forwards that get a token go out as they come in, they can be counted on
either side. -/
theorem newlyReceived_eq {after : List RevenueForward}
    (returned : ∀ key, ∀ forward ∈ freshEntries RevenueForward.keyIn newReceiveToken key forwards
      after, forward.keyOut = key) (key : Key) :
    newlyReceived key forwards after =
      (freshEntries RevenueForward.keyIn newReceiveToken key forwards after).length := by
  rw [newlyReceived, freshEntries, List.length_map, ← List.countP_eq_length_filter]
  refine List.countP_congr fun pair member => ?_
  simp only [decide_eq_true_eq, Bool.and_eq_true]
  refine and_congr_right fun fresh => ?_
  have own : pair.1 ∈ freshEntries RevenueForward.keyIn newReceiveToken pair.1.keyIn forwards after :=
    List.mem_map.mpr ⟨pair, List.mem_filter.mpr ⟨member, by simp [fresh]⟩, rfl⟩
  rw [returned _ _ own]

/-- Imports of receivers are matched as they should be on the outgoing side if and only if
the forwards they are used up on go out as they come in, and are enough. -/
theorem matchImportedForwardsReceive_maximal_iff (forwards : List RevenueForward)
    (imported : List ImportedForward)
    (sorted : imported.Pairwise fun one two => (compareKeys one.key two.key).isLE) :
    ReceivedMaximally forwards imported ↔ ∀ key, ReturnedOnly key forwards imported := by
  have fresh (key : Key) := @freshEntries_receive forwards imported key sorted
  constructor
  · intro maximal key
    have returned := joined_received_iff.mp maximal.pairs
    have counted := newlyReceived_eq returned key
    rw [maximal.counts, fresh, List.length_take] at counted
    refine ⟨fun forward member => returned key forward (fresh key ▸ member), ?_⟩
    rw [Nat.min_comm (comingIn key forwards).length, counted]
  · intro only
    have returned : ∀ key, ∀ forward ∈ freshEntries RevenueForward.keyIn newReceiveToken key forwards
        (matchImportedForwardsReceive forwards imported).1, forward.keyOut = key :=
      fun key forward member => (only key).1 forward (fresh key ▸ member)
    refine ⟨fun key => ?_, joined_received_iff.mpr returned⟩
    rw [newlyReceived_eq returned, fresh, List.length_take, Nat.min_comm, (only key).2]

private def routedForward (peeridIn : Bytes) (amtMsatIn : UInt64) : RevenueForward :=
  { sampleForward 10 none with peeridIn, amtMsatIn }

/-- What the recipient has received from us. -/
private def receivedImport : ImportedForward where
  nodeid := [2]
  peerid := [4]
  amountMsat := 10
  isCorrelated := false
  token := "exported"
  resolvedTime := 1
  direction := "receive"

/-- A forward that returns what came in to the peer it came from. -/
theorem returned_forward_received :
    ReceivedMaximally [routedForward [4] 10] [receivedImport] := by
  refine (matchImportedForwardsReceive_maximal_iff _ _ (List.pairwise_singleton _ _)).mpr ?_
  intro key
  by_cases same : key = ([2], [4], 10)
  · subst same
    unfold ReturnedOnly
    decide
  · have other : ([2], [4], 10) ≠ key := fun equal => same equal.symm
    have none : unusedReceived key [receivedImport] = 0 := by
      simp [unusedReceived, receivedImport, ImportedForward.key, other]
    simp [ReturnedOnly, none]

/-- A forward from the peer 3 to the peer 4 does not get the token of what 4 received. -/
theorem receiver_not_matched :
    ([routedForward [3] 12].Pairwise fun one two => (compareKeys one.keyOut two.keyOut).isLE) ∧
    ([receivedImport].Pairwise fun one two => (compareKeys one.key two.key).isLE) ∧
    ¬ ReceivedMaximally [routedForward [3] 12] [receivedImport] := by
  refine ⟨List.pairwise_singleton _ _, List.pairwise_singleton _ _, ?_⟩
  intro maximal
  have move : receiveMove (routedForward [3] 12) receivedImport = .left := by decide
  have unchanged : (matchImportedForwardsReceive [routedForward [3] 12] [receivedImport]).1 =
      [routedForward [3] 12] := by simp [matchImportedForwardsReceive, walk, move]
  have counted := maximal.counts ([2], [4], 10)
  rw [unchanged] at counted
  exact absurd counted (by decide)

end proofs

end Lspd.Revenue
