import Lspd.Interceptor.Handler
import Lspd.Lightning.Client

/-! What the clients of both backends answer about single channels: the usable
channel at an outpoint, the peer of a scid, and which of some channels are no longer
closing. -/

namespace Lspd.Lightning

/-- The requested entries but those under the names of closing channels. -/
def closedChannels (requested : List (String × UInt64)) (closing : List String) :
    List (String × UInt64) :=
  requested.filter fun entry => entry.1 ∉ closing

theorem closedChannels_eq_iff {requested : List (String × UInt64)} {one two : List String} :
    closedChannels requested one = closedChannels requested two ↔
      ∀ entry ∈ requested, entry.1 ∈ one ↔ entry.1 ∈ two := by
  constructor
  · intro same entry member
    have left : entry ∈ closedChannels requested one ↔ entry.1 ∉ one := by
      simp [closedChannels, member]
    have right : entry ∈ closedChannels requested two ↔ entry.1 ∉ two := by
      simp [closedChannels, member]
    exact not_iff_not.mp (left.symm.trans (same ▸ right))
  · intro same
    apply List.filter_congr
    intro entry member
    simp [same entry member]

end Lspd.Lightning

namespace Lspd.Lnd

open Lspd.Common Lspd.Lightning Lspd.Interceptor

/-- A channel with its `LocalConstraints.MinHtlcMsat`, if there are constraints. -/
structure LocalChannel extends Channel where
  minHtlcMsat : Option UInt64

def LocalChannel.result (c : LocalChannel) : Outcome GetChannelResult :=
  let (aliasScid, confirmedScid) := mapScidsFromChannel c.toChannel
  match c.minHtlcMsat with
  | none => .panic
  | some htlcMinimumMsat => .value { aliasScid, confirmedScid, htlcMinimumMsat }

/-- The channel at which the loop of `GetChannel` returns. -/
def findChannel (channels : List LocalChannel) (channelPoint : OutPoint) : Option LocalChannel :=
  channels.find? fun c => c.channelPoint = channelPoint.string ∧ c.active

/-- `GetChannel`, given what `ListChannels` answers for the peer. -/
def getChannel (answer : Except String (List LocalChannel)) (channelPoint : OutPoint) :
    Outcome GetChannelResult :=
  match answer with
  | .error err => .error err
  | .ok channels =>
    match findChannel channels channelPoint with
    | none => .error "no channel found"
    | some c => c.result

def getWaitingCloseChannels (waitingCloseChannels : List PendingChannel) (nodeID : String) :
    List PendingChannel :=
  waitingCloseChannels.filter fun p => p.remoteNodePub = nodeID

/-- `GetClosedChannels`, given what `PendingChannels` answers. -/
def getClosedChannels (answer : Except String (List PendingChannel)) (nodeID : String)
    (channelPoints : List (String × UInt64)) : Except String (List (String × UInt64)) :=
  if channelPoints = [] then .ok []
  else match answer with
    | .error err => .error err
    | .ok waitingCloseChannels =>
      let wcc := (getWaitingCloseChannels waitingCloseChannels nodeID).map PendingChannel.channelPoint
      .ok (channelPoints.filter fun entry => entry.1 ∉ wcc)

end Lspd.Lnd

namespace Lspd.Cln

open Lspd.Common Lspd.Lightning Lspd.Interceptor

def channeldNormal : Int32 := 2

/-- `OPEN_STATUSES`. -/
def openStatuses : List Int32 := [channeldNormal]

/-- `CLOSING_STATUSES`, from `CHANNELD_SHUTTING_DOWN` to `ONCHAIN`. -/
def closingStatuses : List Int32 := [3, 4, 5, 6, 7, 8]

/-- A channel with its state, whether it has an `Alias`, and its `MinimumHtlcOutMsat`. -/
structure PeerChannel extends ListpeerchannelsChannels where
  state : Option Int32
  hasAlias : Bool
  minimumHtlcOutMsat : Option UInt64
  alias_of_local : aliasLocal ≠ none → hasAlias = true

namespace PeerChannel

def result (c : PeerChannel) : Outcome GetChannelResult :=
  match mapScidsFromChannel c.toListpeerchannelsChannels with
  | .error err => .error err
  | .ok (aliasScid, confirmedScid) =>
    match c.minimumHtlcOutMsat with
    | none => .panic
    | some htlcMinimumMsat => .value { aliasScid, confirmedScid, htlcMinimumMsat }

/-- The entry of a closing channel in `lookup`. -/
def lookupEntry (c : PeerChannel) : Option (String × UInt64) := do
  let state ← c.state
  if state ∈ closingStatuses then
    let shortChannelId ← c.shortChannelId
    let scid ← (newShortChannelIDFromString shortChannelId).toOption
    let fundingOutnum ← c.fundingOutnum
    let cp ← newOutPoint c.fundingTxid.reverse fundingOutnum
    return (cp.string, scid)
  else none

end PeerChannel

/-- The channel at which the loop of `GetChannel` ends. Its log line reads through the
`Alias` of every channel with a state. -/
def findChannel (channelPoint : OutPoint) : List PeerChannel → Outcome PeerChannel
  | [] => .error "no channel found"
  | c :: rest =>
    match c.state with
    | none => findChannel channelPoint rest
    | some state =>
      if c.hasAlias then
        if state ∈ openStatuses ∧ c.fundingTxid.reverse = channelPoint.hash.1 then .value c
        else findChannel channelPoint rest
      else .panic

/-- `GetChannel`, given what `ListPeerChannels` answers for the peer. -/
def getChannel (answer : Except String (List PeerChannel)) (channelPoint : OutPoint) :
    Outcome GetChannelResult :=
  match answer with
  | .error err => .error err
  | .ok channels =>
    match findChannel channelPoint channels with
    | .value c => c.result
    | .error err => .error err
    | .panic => .panic

/-- `GetClosedChannels`, given what `ListPeerChannels` answers for a peer. -/
def getClosedChannels (answer : Bytes → Except String (List PeerChannel)) (nodeID : String)
    (channelPoints : List (String × UInt64)) : Except String (List (String × UInt64)) :=
  if channelPoints = [] then .ok []
  else match decodeString nodeID with
    | none => .error s!"failed to decode nodeid {nodeID}"
    | some nodeIDBytes =>
      match answer nodeIDBytes with
      | .error err => .error err
      | .ok channels =>
        let lookup := (channels.filterMap PeerChannel.lookupEntry).map Prod.fst
        .ok (channelPoints.filter fun entry => entry.1 ∉ lookup)

/-- `GetPeerId`, given what `ListPeerChannels` answers. A peer id that is not set is `[]`. -/
def getPeerId (answer : Except String (List ListpeerchannelsChannels))
    (scid : Option ShortChannelID) : Except String (Option Bytes) :=
  let scidStr := match scid with
    | none => ""
    | some id => id.toString
  match answer with
  | .error err => .error err
  | .ok channels =>
    match channels.find? fun ch =>
        ch.shortChannelId = some scidStr ∨ ch.aliasLocal = some scidStr with
    | none => .ok none
    | some ch => if ch.peerId = [] then .ok none else .ok (some ch.peerId)

section peers

/-- A channel with its scids, which are listed as the texts of their values. -/
structure PrintedChannel extends ListpeerchannelsChannels where
  confirmedScid : Option ShortChannelID
  aliasScid : Option ShortChannelID
  shortChannelId_eq : shortChannelId = confirmedScid.map ShortChannelID.toString
  aliasLocal_eq : aliasLocal = aliasScid.map ShortChannelID.toString

/-- The peer of the first channel that has the scid as its own or as its alias. -/
def getPeerIdByValue (answer : Except String (List PrintedChannel)) (scid : ShortChannelID) :
    Except String (Option Bytes) :=
  answer.map fun channels =>
    (channels.find? fun ch => ch.confirmedScid = some scid ∨ ch.aliasScid = some scid).bind
      fun ch => if ch.peerId = [] then none else some ch.peerId

theorem map_toString_eq_some {listed : Option ShortChannelID} {scid : ShortChannelID} :
    listed.map ShortChannelID.toString = some scid.toString ↔ listed = some scid := by
  simp [Option.map_eq_some_iff, toString_inj]

theorem getPeerId_eq_byValue (answer : Except String (List PrintedChannel))
    (scid : ShortChannelID) :
    getPeerId (answer.map fun channels => channels.map PrintedChannel.toListpeerchannelsChannels)
      (some scid) = getPeerIdByValue answer scid := by
  cases answer with
  | error err => rfl
  | ok channels =>
    have same : (fun ch : PrintedChannel => decide (ch.shortChannelId = some scid.toString ∨
        ch.aliasLocal = some scid.toString)) =
        fun ch => decide (ch.confirmedScid = some scid ∨ ch.aliasScid = some scid) := by
      funext ch
      simp only [ch.shortChannelId_eq, ch.aliasLocal_eq, map_toString_eq_some]
    simp only [getPeerId, getPeerIdByValue, Except.map, List.find?_map, Function.comp_def, same]
    cases channels.find? fun ch => ch.confirmedScid = some scid ∨ ch.aliasScid = some scid with
    | none => rfl
    | some ch => by_cases unset : ch.peerId = [] <;> simp [unset]

/-- The text of an id is read back to it, so no two ids have one text, and the peer that
is found by the text of a scid is the one of the channel with that scid. -/
theorem scid_text_faithful :
    (∀ id : ShortChannelID, newShortChannelIDFromString id.toString = .ok id) ∧
    Function.Injective ShortChannelID.toString ∧
    ∀ (answer : Except String (List PrintedChannel)) (scid : ShortChannelID),
      getPeerId (answer.map fun channels =>
        channels.map PrintedChannel.toListpeerchannelsChannels) (some scid) =
        getPeerIdByValue answer scid :=
  ⟨read_toString, fun _ _ => toString_inj.mp, getPeerId_eq_byValue⟩

/-- A channel that is confirmed as 800000x1200x1 and has the alias 16000000x2x3. -/
def sampleChannel : PrintedChannel where
  peerId := 2 :: List.replicate 32 7
  shortChannelId := some "800000x1200x1"
  aliasLocal := some "16000000x2x3"
  fundingTxid := List.replicate 32 5
  fundingOutnum := some 1
  confirmedScid := some 879609302299443201
  aliasScid := some 17592186044416131075
  shortChannelId_eq := by decide
  aliasLocal_eq := by decide

example : getPeerId (.ok [sampleChannel.toListpeerchannelsChannels]) (some 17592186044416131075) =
    .ok (some (2 :: List.replicate 32 7)) := by decide

end peers

section closed

variable {channels : List PeerChannel} {requested : List (String × UInt64)} {c : PeerChannel}

def PeerChannel.closing (c : PeerChannel) : Bool := c.state.any fun state => state ∈ closingStatuses

/-- The channel has a confirmed short channel id. -/
def PeerChannel.Confirmed (c : PeerChannel) : Prop :=
  ∃ text scid, c.shortChannelId = some text ∧ newShortChannelIDFromString text = .ok scid

/-- The funding outpoints of the closing channels. -/
def closingPoints (channels : List PeerChannel) : List OutPoint :=
  (channels.filter PeerChannel.closing).filterMap fun c => channelPoint c.toListpeerchannelsChannels

/-- Every closing channel that was asked for is listed with a confirmed short channel id. -/
def ClosingConfirmed (channels : List PeerChannel) (requested : List (String × UInt64)) : Prop :=
  ∀ point ∈ closingPoints channels, point.string ∈ requested.map Prod.fst →
    ∃ c ∈ channels, c.closing = true ∧ c.Confirmed ∧
      channelPoint c.toListpeerchannelsChannels = some point

theorem channelPoint_eq (c : ListpeerchannelsChannels) :
    channelPoint c = c.fundingOutnum.bind fun outnum => newOutPoint c.fundingTxid.reverse outnum := by
  rw [channelPoint]
  split
  · rename_i empty
    rw [empty]
    cases c.fundingOutnum <;> rfl
  · rfl

theorem mem_closingPoints {point : OutPoint} : point ∈ closingPoints channels ↔
    ∃ c ∈ channels, c.closing = true ∧ channelPoint c.toListpeerchannelsChannels = some point := by
  simp only [closingPoints, List.mem_filterMap, List.mem_filter, and_assoc]

theorem lookupEntry_eq_some_iff {name : String} : (∃ scid, c.lookupEntry = some (name, scid)) ↔
    c.closing = true ∧ c.Confirmed ∧
      ∃ point, channelPoint c.toListpeerchannelsChannels = some point ∧ point.string = name := by
  rw [channelPoint_eq]
  unfold PeerChannel.lookupEntry PeerChannel.closing PeerChannel.Confirmed
  cases c.state with
  | none => simp
  | some state =>
    by_cases closes : state ∈ closingStatuses
    · cases c.shortChannelId with
      | none => simp
      | some text =>
        cases parsed : newShortChannelIDFromString text with
        | error err => simp [parsed, Except.toOption]
        | ok scid =>
          cases c.fundingOutnum with
          | none => simp
          | some outnum =>
            cases funded : newOutPoint c.fundingTxid.reverse outnum <;>
              simp [parsed, funded, closes, Except.toOption]
    · simp [closes]

theorem mem_lookup {name : String} :
    name ∈ (channels.filterMap PeerChannel.lookupEntry).map Prod.fst ↔
      ∃ c ∈ channels, c.closing = true ∧ c.Confirmed ∧
        ∃ point, channelPoint c.toListpeerchannelsChannels = some point ∧ point.string = name := by
  simp only [← lookupEntry_eq_some_iff]
  constructor
  · intro member
    obtain ⟨⟨_, scid⟩, found, rfl⟩ := List.mem_map.mp member
    obtain ⟨c, listed, entry⟩ := List.mem_filterMap.mp found
    exact ⟨c, listed, scid, entry⟩
  · rintro ⟨c, listed, scid, entry⟩
    exact List.mem_map.mpr ⟨(name, scid), List.mem_filterMap.mpr ⟨c, listed, entry⟩, rfl⟩

/-- The lookup has the requested names of all closing channels. -/
theorem lookup_complete_iff :
    (∀ entry ∈ requested, entry.1 ∈ (channels.filterMap PeerChannel.lookupEntry).map Prod.fst ↔
      entry.1 ∈ (closingPoints channels).map OutPoint.string) ↔
    ClosingConfirmed channels requested := by
  constructor
  · intro complete point closes asked
    obtain ⟨entry, member, same⟩ := List.mem_map.mp asked
    have found := (complete entry member).mpr (same ▸ List.mem_map_of_mem closes)
    obtain ⟨c, listed, closing, confirmed, other, funded, name⟩ := mem_lookup.mp found
    obtain rfl := OutPoint.string_injective (name.trans same)
    exact ⟨c, listed, closing, confirmed, funded⟩
  · intro confirmed entry member
    constructor
    · intro found
      obtain ⟨c, listed, closing, _, point, funded, name⟩ := mem_lookup.mp found
      exact name ▸ List.mem_map_of_mem (mem_closingPoints.mpr ⟨c, listed, closing, funded⟩)
    · intro closes
      obtain ⟨point, among, name⟩ := List.mem_map.mp closes
      obtain ⟨c, listed, closing, has, funded⟩ :=
        confirmed point among (name ▸ List.mem_map_of_mem member)
      exact mem_lookup.mpr ⟨c, listed, closing, has, point, funded, name⟩

theorem getClosedChannels_eq {answer : Bytes → Except String (List PeerChannel)} {nodeID : String}
    {nodeIDBytes : Bytes} (decoded : decodeString nodeID = some nodeIDBytes)
    (listed : answer nodeIDBytes = .ok channels) :
    getClosedChannels answer nodeID requested =
      .ok (closedChannels requested ((channels.filterMap PeerChannel.lookupEntry).map Prod.fst)) := by
  rw [getClosedChannels, decoded]
  split
  · rename_i empty
    rw [empty]
    rfl
  · simp only [listed]
    rfl

end closed

section recorded

variable {channels : List PeerChannel} {point : OutPoint} {c : PeerChannel}

/-- The channels of a node that `ListPeerChannels` lists for a peer. -/
def channelsWith (node : List PeerChannel) (peerID : Bytes) : List PeerChannel :=
  node.filter fun c => c.peerId = peerID

theorem getChannel_eq_value_iff {r : GetChannelResult} : getChannel (.ok channels) point = .value r ↔
    ∃ c, findChannel point channels = .value c ∧ c.result = .value r := by
  rw [getChannel]
  cases findChannel point channels <;> simp

theorem channelPoint_eq_some_iff {c : ListpeerchannelsChannels} : channelPoint c = some point ↔
    c.fundingTxid.reverse = point.hash.1 ∧ c.fundingOutnum = some point.index := by
  rw [channelPoint_eq, Option.bind_eq_some_iff]
  constructor
  · rintro ⟨outnum, present, made⟩
    rw [newOutPoint] at made
    split at made
    · obtain rfl := Option.some.inj made
      exact ⟨rfl, present⟩
    · cases made
  · rintro ⟨txid, present⟩
    exact ⟨point.index, present, by rw [txid, newOutPoint_hash]⟩

theorem of_findChannel (found : findChannel point channels = .value c) :
    c ∈ channels ∧ c.state = some channeldNormal ∧ c.hasAlias = true ∧
      c.fundingTxid.reverse = point.hash.1 := by
  induction channels with
  | nil => cases found
  | cons first rest ih =>
    rw [findChannel] at found
    split at found
    · exact (ih found).imp_left (List.mem_cons_of_mem _)
    · rename_i state here
      split_ifs at found with named matched
      · obtain rfl := Outcome.value.inj found
        refine ⟨List.mem_cons_self, ?_, named, matched.2⟩
        rw [here, List.mem_singleton.mp matched.1]
      · exact (ih found).imp_left (List.mem_cons_of_mem _)

/-- A usable channel with the transaction is found if it comes first. -/
theorem findChannel_cons (usable : c.state = some channeldNormal) (named : c.hasAlias = true)
    (txid : c.fundingTxid.reverse = point.hash.1) (rest : List PeerChannel) :
    findChannel point (c :: rest) = .value c := by
  simp [findChannel, usable, named, txid, openStatuses]

/-- In whatever order the channels with a peer are listed, `GetChannel` returns the
data of a usable one of them that has the requested funding outpoint. -/
def ReturnsRecorded (node : List PeerChannel) (peerID : Bytes) (point : OutPoint) : Prop :=
  ∀ listing, listing.Perm (channelsWith node peerID) →
    ∀ r, getChannel (.ok listing) point = .value r →
      ∃ c ∈ node, findChannel point listing = .value c ∧ c.result = .value r ∧
        c.peerId = peerID ∧ c.state = some channeldNormal ∧
        channelPoint c.toListpeerchannelsChannels = some point

/-- The usable channels with the peer that the transaction funds, as far as they have
the data to be returned, are all at the requested output. -/
def OneOutput (node : List PeerChannel) (peerID : Bytes) (point : OutPoint) : Prop :=
  ∀ c ∈ node, c.peerId = peerID → c.state = some channeldNormal → c.hasAlias = true →
    (∃ r, c.result = .value r) → c.fundingTxid.reverse = point.hash.1 →
    c.fundingOutnum = some point.index

theorem returnsRecorded_iff {node : List PeerChannel} {peerID : Bytes} :
    ReturnsRecorded node peerID point ↔ OneOutput node peerID point := by
  constructor
  · intro recorded c member peer usable named data txid
    obtain ⟨r, result⟩ := data
    have own : c ∈ channelsWith node peerID := List.mem_filter.mpr ⟨member, by simpa using peer⟩
    obtain ⟨before, after, split⟩ := List.append_of_mem own
    -- the node may list this channel first
    have order : (c :: (before ++ after)).Perm (channelsWith node peerID) :=
      split ▸ List.perm_middle.symm
    have found := findChannel_cons usable named txid (before ++ after)
    obtain ⟨other, _, again, _, _, _, funded⟩ :=
      recorded _ order r (getChannel_eq_value_iff.mpr ⟨c, found, result⟩)
    obtain rfl : c = other := Outcome.value.inj (found.symm.trans again)
    exact (channelPoint_eq_some_iff.mp funded).2
  · intro one listing order r returned
    obtain ⟨c, found, result⟩ := getChannel_eq_value_iff.mp returned
    obtain ⟨listed, usable, named, txid⟩ := of_findChannel found
    obtain ⟨member, peer⟩ := List.mem_filter.mp (order.subset listed)
    have peer := of_decide_eq_true peer
    have outnum := one c member peer usable named ⟨r, result⟩ txid
    exact ⟨c, member, found, result, peer, usable, channelPoint_eq_some_iff.mpr ⟨txid, outnum⟩⟩

end recorded

end Lspd.Cln

namespace Lspd.Lnd

open Lspd.Common Lspd.Lightning Lspd.Interceptor

/-- The channels of a node that `ListChannels` lists for a peer. -/
def channelsWith (node : List LocalChannel) (peerID : Bytes) : List LocalChannel :=
  node.filter fun c => c.remotePubkey = encodeToString peerID

/-- As for cln; the text of an outpoint tells which one it is. -/
def ReturnsRecorded (node : List LocalChannel) (peerID : Bytes) (point : OutPoint) : Prop :=
  ∀ listing, listing.Perm (channelsWith node peerID) →
    ∀ r, getChannel (.ok listing) point = .value r →
      ∃ c ∈ node, findChannel listing point = some c ∧ c.result = .value r ∧
        c.remotePubkey = encodeToString peerID ∧ c.active = true ∧
        ∀ funding : OutPoint, c.channelPoint = funding.string → funding = point

theorem returnsRecorded (node : List LocalChannel) (peerID : Bytes) (point : OutPoint) :
    ReturnsRecorded node peerID point := by
  intro listing order r returned
  rw [getChannel] at returned
  cases found : findChannel listing point with
  | none => simp [found] at returned
  | some c =>
    simp only [found] at returned
    have selected := List.find?_some found
    obtain ⟨named, active⟩ := of_decide_eq_true selected
    obtain ⟨member, peer⟩ := List.mem_filter.mp (order.subset (List.mem_of_find?_eq_some found))
    refine ⟨c, member, rfl, returned, of_decide_eq_true peer, active, ?_⟩
    intro funding text
    exact OutPoint.string_injective (text.symm.trans named)

end Lspd.Lnd

namespace Lspd.Lightning

open Lspd.Common

theorem lnd_getClosedChannels_eq (waitingCloseChannels : List Lnd.PendingChannel) (nodeID : String)
    (requested : List (String × UInt64)) :
    Lnd.getClosedChannels (.ok waitingCloseChannels) nodeID requested =
      .ok (closedChannels requested
        ((Lnd.getWaitingCloseChannels waitingCloseChannels nodeID).map
          Lnd.PendingChannel.channelPoint)) := by
  rw [Lnd.getClosedChannels]
  split
  · rename_i empty
    rw [empty]
    rfl
  · rfl

/-- Both backends return the requested channels that are not closing exactly if cln
has a confirmed short channel id for each of those that are. -/
theorem getClosedChannels_exact_iff {answer : Bytes → Except String (List Cln.PeerChannel)}
    {nodeID : String} {nodeIDBytes : Bytes} {channels : List Cln.PeerChannel}
    (decoded : decodeString nodeID = some nodeIDBytes) (listed : answer nodeIDBytes = .ok channels)
    (waitingCloseChannels : List Lnd.PendingChannel) (requested : List (String × UInt64)) :
    (Lnd.getClosedChannels (.ok waitingCloseChannels) nodeID requested =
        .ok (closedChannels requested
          ((Lnd.getWaitingCloseChannels waitingCloseChannels nodeID).map
            Lnd.PendingChannel.channelPoint)) ∧
      Cln.getClosedChannels answer nodeID requested =
        .ok (closedChannels requested ((Cln.closingPoints channels).map OutPoint.string))) ↔
    Cln.ClosingConfirmed channels requested := by
  rw [and_iff_right (lnd_getClosedChannels_eq ..), Cln.getClosedChannels_eq decoded listed,
    Except.ok.injEq, closedChannels_eq_iff, Cln.lookup_complete_iff]

/-- `GetChannel` answers with the recorded channel for both backends exactly if cln
has no two usable channels with the peer at outputs of the same transaction. -/
theorem getChannel_recorded_iff (lnd : List Lnd.LocalChannel) (cln : List Cln.PeerChannel)
    (peerID : Bytes) (point : OutPoint) :
    Lnd.ReturnsRecorded lnd peerID point ∧ Cln.ReturnsRecorded cln peerID point ↔
      Cln.OneOutput cln peerID point := by
  rw [and_iff_right (Lnd.returnsRecorded lnd peerID point), Cln.returnsRecorded_iff]

section sample

def sampleTxid : Bytes := (List.range 32).map fun byte => .ofNat (byte + 1)

/-- A funding output of a transaction, as both backends name it. -/
def sampleFunding (index : UInt32) : OutPoint := ⟨⟨sampleTxid.reverse, by decide⟩, index⟩

/-- A channel that cln lists at that output. -/
def samplePeerChannel (state : Int32) (shortChannelId : Option String) (outnum : UInt32) :
    Cln.PeerChannel :=
  { peerId := [3]
    shortChannelId
    aliasLocal := some "16000000x1x1"
    fundingTxid := sampleTxid
    fundingOutnum := some outnum
    state := some state
    hasAlias := true
    minimumHtlcOutMsat := some 1000
    alias_of_local := fun _ => rfl }

theorem channelPoint_sample (state : Int32) (shortChannelId : Option String) (outnum : UInt32) :
    Cln.channelPoint (samplePeerChannel state shortChannelId outnum).toListpeerchannelsChannels =
      some (sampleFunding outnum) := by
  rw [Cln.channelPoint_eq]
  exact newOutPoint_hash (sampleFunding outnum) outnum

theorem closingPoints_sample (shortChannelId : Option String) (outnum : UInt32) :
    Cln.closingPoints [samplePeerChannel 3 shortChannelId outnum] = [sampleFunding outnum] := by
  have closing : (samplePeerChannel 3 shortChannelId outnum).closing = true := by
    simp [samplePeerChannel, Cln.PeerChannel.closing, Cln.closingStatuses]
  simp [Cln.closingPoints, closing, channelPoint_sample]

/-- A confirmed channel that is shutting down is not reported as closed. -/
theorem getClosedChannels_exact_confirmed :
    Cln.getClosedChannels (fun _ => .ok [samplePeerChannel 3 (some "700000x2x1") 0]) "03"
        [((sampleFunding 0).string, 5)] =
      .ok (closedChannels [((sampleFunding 0).string, 5)] [(sampleFunding 0).string]) := by
  have decoded : decodeString "03" = some [3] := by decide
  have scid : newShortChannelIDFromString "700000x2x1" = .ok 769658139443331073 := by decide
  have confirmed : Cln.ClosingConfirmed [samplePeerChannel 3 (some "700000x2x1") 0]
      [((sampleFunding 0).string, 5)] := by
    intro point closes _
    obtain ⟨c, listed, closing, funded⟩ := Cln.mem_closingPoints.mp closes
    obtain rfl := List.mem_singleton.mp listed
    exact ⟨_, listed, closing, ⟨_, _, rfl, scid⟩, funded⟩
  have both := (@getClosedChannels_exact_iff (fun _ => .ok _) _ _ _ decoded rfl [] _).mpr confirmed
  rw [both.2, closingPoints_sample]
  rfl

/-- A zero-conf channel that is shutting down before it has a short channel id: cln
reports it as closed, lnd does not. -/
theorem zero_conf_closing_reported :
    Cln.getClosedChannels (fun _ => .ok [samplePeerChannel 3 none 0]) "03"
        [((sampleFunding 0).string, 5)] = .ok [((sampleFunding 0).string, 5)] ∧
      Lnd.getClosedChannels (.ok [⟨"03", (sampleFunding 0).string⟩]) "03"
        [((sampleFunding 0).string, 5)] = .ok [] ∧
      Cln.closingPoints [samplePeerChannel 3 none 0] = [sampleFunding 0] := by
  have decoded : decodeString "03" = some [3] := by decide
  refine ⟨?_, ?_, closingPoints_sample none 0⟩
  · rw [Cln.getClosedChannels_eq decoded rfl]
    rfl
  · rw [lnd_getClosedChannels_eq]
    simp [closedChannels, Lnd.getWaitingCloseChannels]

/-- Two channels of one transaction: asked for the one at the second output, cln
answers with the channel at the first. -/
theorem other_output_returned :
    Cln.findChannel (sampleFunding 1)
        [samplePeerChannel 2 (some "700000x2x0") 0, samplePeerChannel 2 (some "700000x2x1") 1] =
      .value (samplePeerChannel 2 (some "700000x2x0") 0) ∧
    Cln.getChannel (.ok
        [samplePeerChannel 2 (some "700000x2x0") 0, samplePeerChannel 2 (some "700000x2x1") 1])
      (sampleFunding 1) = .value ⟨some 17592186044416065537, some 769658139443331072, 1000⟩ ∧
    Cln.channelPoint (samplePeerChannel 2 (some "700000x2x0") 0).toListpeerchannelsChannels =
      some (sampleFunding 0) :=
  ⟨rfl, rfl, channelPoint_sample ..⟩

end sample

end Lspd.Lightning
