import Lspd.Revenue.Receivers
import Lspd.Sorted.Leaders

/-! Htlcs that were used to open a channel, which are attached to the forwards they were
settled by. -/

namespace Lspd.Revenue

open Lspd.Common Lspd.Lightning Lspd.Sorted Std

/-- One turn of the loop in `matchOpenChannelHtlcs`. -/
def openingMove (forward : RevenueForward) (htlc : OpenChannelHtlc) : Move :=
  let behind := compare forward
    { nodeid := htlc.nodeid
      peerid := htlc.peerid
      amountMsat := htlc.forwardAmountMsat
      isCorrelated := false
      token := ""
      resolvedTime := 0
      direction := "" }
  if behind = firstBehind then .left
  else if behind = secondBehind then .right
  else
    match Ord.compare forward.channelPointOut.hash.1 htlc.channelPoint.hash.1 with
    | .lt => .left
    | .gt => .right
    | .eq =>
      if forward.channelPointOut.index < htlc.channelPoint.index then .left
      else if forward.channelPointOut.index > htlc.channelPoint.index then .right
      else if forward.amtMsatIn < htlc.incomingAmountMsat then .left
      else if forward.amtMsatIn > htlc.incomingAmountMsat then .right
      else if forward.openChannelHtlc ≠ none then .left
      else .both

def attachHtlc (forward : RevenueForward) (htlc : OpenChannelHtlc) :
    RevenueForward × OpenChannelHtlc :=
  ({ forward with openChannelHtlc := some htlc }, htlc)

/-- The forwards as the function leaves them. It sorts a copy of the list it is given, but
goes through the list itself. -/
def matchOpenChannelHtlcs (forwardsSortedOut : List RevenueForward)
    (openChannelHtlcs : List OpenChannelHtlc) : List RevenueForward × List OpenChannelHtlc :=
  walk openingMove attachHtlc forwardsSortedOut openChannelHtlcs

section keys

/-- What the loop compares: the incoming side of a forward with the node, the peer and the
forwarded amount of an htlc, then channel points and incoming amounts. -/
abbrev ComparedKey := Bytes × Bytes × UInt64 × Bytes × UInt32 × UInt64

def RevenueForward.compared (forward : RevenueForward) : ComparedKey :=
  (forward.nodeid, forward.peeridIn, forward.amtMsatIn, forward.channelPointOut.hash.1,
    forward.channelPointOut.index, forward.amtMsatIn)

def OpenChannelHtlc.compared (htlc : OpenChannelHtlc) : ComparedKey :=
  (htlc.nodeid, htlc.peerid, htlc.forwardAmountMsat, htlc.channelPoint.hash.1,
    htlc.channelPoint.index, htlc.incomingAmountMsat)

def compareCompared : ComparedKey → ComparedKey → Ordering :=
  compareLex (compareOn fun key => key.1) (compareLex (compareOn fun key => key.2.1)
    (compareLex (compareOn fun key => key.2.2.1) (compareLex (compareOn fun key => key.2.2.2.1)
      (compareLex (compareOn fun key => key.2.2.2.2.1) (compareOn fun key => key.2.2.2.2.2)))))

instance : TransCmp compareCompared := inferInstanceAs (TransCmp (compareLex _ _))

theorem compareCompared_eq (one two : ComparedKey) :
    compareCompared one two =
      (compareKeys (one.1, one.2.1, one.2.2.1) (two.1, two.2.1, two.2.2.1)).then
        ((Ord.compare one.2.2.2.1 two.2.2.2.1).then
          ((Ord.compare one.2.2.2.2.1 two.2.2.2.2.1).then
            (Ord.compare one.2.2.2.2.2 two.2.2.2.2.2))) := by
  rw [compareKeys_eq, Ordering.then_assoc, Ordering.then_assoc]
  rfl

instance : LawfulEqCmp compareCompared where
  eq_of_compare := by
    intro one two same
    rw [compareCompared_eq, Ordering.then_eq_eq, Ordering.then_eq_eq, Ordering.then_eq_eq] at same
    obtain ⟨keys, hash, index, amount⟩ := same
    have equal := LawfulEqCmp.eq_of_compare keys
    simp only [Prod.mk.injEq] at equal
    exact Prod.ext equal.1 (Prod.ext equal.2.1 (Prod.ext equal.2.2
      (Prod.ext (LawfulEqOrd.eq_of_compare hash) (Prod.ext (LawfulEqOrd.eq_of_compare index)
        (LawfulEqOrd.eq_of_compare amount)))))

/-- A forward without an htlc is compared by its key. -/
theorem openingMove_eq {forward : RevenueForward} (free : forward.openChannelHtlc = none)
    (htlc : OpenChannelHtlc) :
    openingMove forward htlc = moveOf (compareCompared forward.compared htlc.compared) := by
  rw [compareCompared_eq]
  simp only [openingMove, behind_eq]
  change _ = moveOf ((compareKeys forward.keyIn
    (htlc.nodeid, htlc.peerid, htlc.forwardAmountMsat)).then
      ((Ord.compare forward.channelPointOut.hash.1 htlc.channelPoint.hash.1).then
        ((Ord.compare forward.channelPointOut.index htlc.channelPoint.index).then
          (Ord.compare forward.amtMsatIn htlc.incomingAmountMsat))))
  simp only [ImportedForward.key]
  cases compareKeys forward.keyIn (htlc.nodeid, htlc.peerid, htlc.forwardAmountMsat) with
  | lt => rfl
  | gt => rfl
  | eq =>
    cases Ord.compare forward.channelPointOut.hash.1 htlc.channelPoint.hash.1 with
    | lt => rfl
    | gt => rfl
    | eq =>
      cases points : Ord.compare forward.channelPointOut.index htlc.channelPoint.index with
      | lt => simp [compare_eq_lt.mp points, moveOf]
      | gt =>
        have greater := compare_eq_gt.mp points
        simp [greater, UInt32.lt_asymm greater, moveOf]
      | eq =>
        cases amounts : Ord.compare forward.amtMsatIn htlc.incomingAmountMsat with
        | lt => simp [compare_eq_iff_eq.mp points, compare_eq_lt.mp amounts, moveOf]
        | gt =>
          have greater := compare_eq_gt.mp amounts
          simp [compare_eq_iff_eq.mp points, greater, UInt64.lt_asymm greater, moveOf]
        | eq => simp [compare_eq_iff_eq.mp points, compare_eq_iff_eq.mp amounts, free, moveOf]

end keys

/-- What the forward of an opening htlc has in common with it: the node, the peer, the
channel point, the forwarded and the incoming amount. -/
abbrev OpeningKey := Bytes × Bytes × OutPoint × UInt64 × UInt64

def RevenueForward.opening (forward : RevenueForward) : OpeningKey :=
  (forward.nodeid, forward.peeridOut, forward.channelPointOut, forward.amtMsatOut,
    forward.amtMsatIn)

def OpenChannelHtlc.opening (htlc : OpenChannelHtlc) : OpeningKey :=
  (htlc.nodeid, htlc.peerid, htlc.channelPoint, htlc.forwardAmountMsat, htlc.incomingAmountMsat)

/-- How many forwards of a key have an htlc. -/
def attached (key : OpeningKey) (forwards : List RevenueForward) : Nat :=
  forwards.countP fun forward => forward.openChannelHtlc.isSome ∧ forward.opening = key

/-- As many htlcs of each key are attached as there are htlcs and forwards, each to a
forward of its own that has the key. -/
structure AttachedMaximally (forwards : List RevenueForward) (htlcs : List OpenChannelHtlc) :
    Prop where
  counts : ∀ key, attached key (matchOpenChannelHtlcs forwards htlcs).1 =
    min (forwards.countP fun forward => forward.opening = key)
      (htlcs.countP fun htlc => htlc.opening = key)
  pairs : ∃ pairs, Joined (fun forward htlc => forward.opening = htlc.opening) attachHtlc forwards
    htlcs (matchOpenChannelHtlcs forwards htlcs) pairs

/-- The forwards that are level with an htlc return what came in, and of the others none
belongs to an htlc. -/
def ReturnedLevel (forwards : List RevenueForward) (htlcs : List OpenChannelHtlc) : Prop :=
  ∃ cut, Abreast compareCompared RevenueForward.compared OpenChannelHtlc.compared forwards htlcs
      cut ∧
    (∀ pair ∈ cut.joined, pair.1.keyOut = pair.1.keyIn) ∧
    ∀ forward ∈ cut.lefts, ∀ htlc ∈ cut.rights, forward.opening ≠ htlc.opening

section proofs

variable {forwards : List RevenueForward} {htlcs : List OpenChannelHtlc}

theorem opening_eq_iff {forward : RevenueForward} {htlc : OpenChannelHtlc}
    (same : forward.compared = htlc.compared) :
    forward.opening = htlc.opening ↔ forward.keyOut = forward.keyIn := by
  simp only [RevenueForward.compared, OpenChannelHtlc.compared, Prod.mk.injEq] at same
  obtain ⟨node, peer, amount, hash, index, incoming⟩ := same
  have point : forward.channelPointOut = ⟨htlc.channelPoint.hash, htlc.channelPoint.index⟩ := by
    rw [← Subtype.ext hash, ← index]
  simp [RevenueForward.opening, OpenChannelHtlc.opening, RevenueForward.keyOut,
    RevenueForward.keyIn, node, peer, ← amount, ← incoming, point]

theorem opening_attachHtlc (forward : RevenueForward) (htlc : OpenChannelHtlc) :
    (attachHtlc forward htlc).1.opening = forward.opening := rfl

section free

variable (free : ∀ forward ∈ forwards, forward.openChannelHtlc = none)
include free

/-- The htlcs are those of the forwards if and only if this holds for everything the walk
joins. -/
theorem joined_opening_iff :
    (∃ pairs, Joined (fun forward htlc => forward.opening = htlc.opening) attachHtlc forwards htlcs
      (matchOpenChannelHtlcs forwards htlcs) pairs) ↔
    ∀ pair ∈ (trace openingMove forwards htlcs).joined, pair.1.opening = pair.2.opening := by
  obtain ⟨pairs, matching, entries⟩ := @exists_traced _ _ openingMove attachHtlc forwards htlcs
  constructor
  · rintro ⟨others, opened⟩ ⟨forward, htlc⟩ member
    obtain ⟨pair, among, left, right⟩ := (entries forward htlc).mp member
    obtain ⟨one, two, atLeft, atRight, _, new, _⟩ := matching.joined pair among
    obtain rfl := Option.some.inj (left.symm.trans atLeft)
    obtain rfl := Option.some.inj (right.symm.trans atRight)
    have changed : pair.1 ∈ others.map Prod.fst := by
      by_contra outside
      have kept := Option.some.inj ((new.symm.trans (opened.lefts pair.1 outside)).trans left)
      cases (congrArg RevenueForward.openChannelHtlc kept).trans
        (free forward (List.mem_of_getElem? left))
    obtain ⟨other, amongOthers, same⟩ := List.mem_map.mp changed
    obtain ⟨one, two, otherLeft, _, equal, otherNew, _⟩ := opened.joined other amongOthers
    rw [same] at otherLeft otherNew
    obtain rfl := Option.some.inj (left.symm.trans otherLeft)
    have again := Option.some.inj (new.symm.trans otherNew)
    obtain rfl : htlc = two := Option.some.inj (congrArg RevenueForward.openChannelHtlc again)
    exact equal
  · intro belong
    refine ⟨pairs, matching.toJoined.imp ?_⟩
    intro pair member forward htlc left right _
    exact belong (forward, htlc) ((entries forward htlc).mpr ⟨pair, member, left, right⟩)

/-- The forwards that have an htlc afterwards are those that were joined. -/
theorem attached_eq (key : OpeningKey) :
    attached key (matchOpenChannelHtlcs forwards htlcs).1 =
      (trace openingMove forwards htlcs).joined.countP fun pair => pair.1.opening = key := by
  have passed : ((trace openingMove forwards htlcs).lefts.countP fun forward =>
      forward.openChannelHtlc.isSome ∧ forward.opening = key) = 0 := by
    refine List.countP_eq_zero.mpr fun forward member => ?_
    have among : forward ∈ forwards :=
      (perm_lefts forwards htlcs).mem_iff.mpr (List.mem_append_right _ member)
    simp [free forward among]
  rw [attached, matchOpenChannelHtlcs, (perm_walk_fst attachHtlc forwards htlcs).countP_eq,
    List.countP_append, passed, List.countP_map]
  refine List.countP_congr fun pair _ => ?_
  simp only [Function.comp_apply, decide_eq_true_eq, opening_attachHtlc]
  simp [attachHtlc]

theorem trace_openings {cut : Trace RevenueForward OpenChannelHtlc}
    (abreast : Abreast compareCompared RevenueForward.compared OpenChannelHtlc.compared forwards
      htlcs cut) : trace openingMove forwards htlcs = cut :=
  abreast.trace_eq fun forward member => openingMove_eq (free forward member)

end free

/-- Every opening htlc gets its forward if and only if the level ones belong together, and
no others do. -/
theorem matchOpenChannelHtlcs_maximal_iff (forwards : List RevenueForward)
    (htlcs : List OpenChannelHtlc)
    (free : ∀ forward ∈ forwards, forward.openChannelHtlc = none) :
    AttachedMaximally forwards htlcs ↔ ReturnedLevel forwards htlcs := by
  have maximal := @joined_maximal_iff _ _ _ _ RevenueForward.opening OpenChannelHtlc.opening _ _ _
    (@perm_lefts _ _ openingMove forwards htlcs) (perm_rights forwards htlcs)
  constructor
  · intro attachedAll
    obtain ⟨cut, abreast⟩ := exists_abreast compareCompared RevenueForward.compared
      OpenChannelHtlc.compared forwards htlcs
    have belong := (joined_opening_iff free).mp attachedAll.pairs
    have apart := (maximal belong).mp fun key => by
      rw [← attached_eq free, attachedAll.counts]
    rw [trace_openings free abreast] at belong apart
    refine ⟨cut, abreast, fun pair member => ?_, apart⟩
    exact (opening_eq_iff (abreast.same pair member)).mp (belong pair member)
  · rintro ⟨cut, abreast, returned, apart⟩
    have belong : ∀ pair ∈ cut.joined, pair.1.opening = pair.2.opening := fun pair member =>
      (opening_eq_iff (abreast.same pair member)).mpr (returned pair member)
    rw [← trace_openings free abreast] at belong apart
    refine ⟨fun key => ?_, (joined_opening_iff free).mpr belong⟩
    rw [attached_eq free, (maximal belong).mpr apart]

private def paidForward (peeridIn : Bytes) (amtMsatIn : UInt64) : RevenueForward :=
  { sampleForward 900 none with peeridIn, amtMsatIn }

private def openingHtlc (incomingAmountMsat : UInt64) : OpenChannelHtlc where
  nodeid := [2]
  peerid := [4]
  forwardAmountMsat := 900
  originalAmountMsat := incomingAmountMsat
  incomingAmountMsat
  channelPoint := samplePoint 2

/-- A forward that returns what came in to the peer it came from. -/
theorem returned_forward_attached :
    AttachedMaximally [paidForward [4] 900] [openingHtlc 900] := by
  refine (matchOpenChannelHtlcs_maximal_iff _ _ (by simp [paidForward, sampleForward])).mpr ?_
  have apart : NoLevel compareCompared RevenueForward.compared OpenChannelHtlc.compared [] [] := by
    intro before left after _ _ _ split
    simp at split
  refine ⟨⟨[(paidForward [4] 900, openingHtlc 900)], [], []⟩, ?_, ?_, List.forall_mem_nil _⟩
  · exact @Abreast.level _ _ _ compareCompared RevenueForward.compared OpenChannelHtlc.compared
      [] [] _ [] [] _ _ ⟨rfl, List.forall_mem_nil _, List.forall_mem_nil _⟩ apart (.apart apart)
  · simp [paidForward, sampleForward, RevenueForward.keyOut, RevenueForward.keyIn]

/-- A payment of 1000 from the peer 3, of which 900 are forwarded to the peer 4 in the
channel that was opened for it: the htlc is not attached. -/
theorem opening_htlc_not_attached :
    (paidForward [3] 1000).opening = (openingHtlc 1000).opening ∧
    (∀ forward ∈ [paidForward [3] 1000], forward.openChannelHtlc = none) ∧
    ¬ AttachedMaximally [paidForward [3] 1000] [openingHtlc 1000] := by
  refine ⟨rfl, by simp [paidForward, sampleForward], ?_⟩
  intro maximal
  have move : openingMove (paidForward [3] 1000) (openingHtlc 1000) = .left := by decide
  have unchanged : (matchOpenChannelHtlcs [paidForward [3] 1000] [openingHtlc 1000]).1 =
      [paidForward [3] 1000] := by simp [matchOpenChannelHtlcs, walk, move]
  have counted := maximal.counts (openingHtlc 1000).opening
  rw [unchanged] at counted
  exact absurd counted (by decide)

end proofs

end Lspd.Revenue
