import Lspd.History.ChannelSync

/-! The two ways to the outpoint of an lnd channel. `OpenChannel` gets the bytes
of the funding transaction id, `ListChannels` its text, and the history store
keeps one row per outpoint. -/

namespace Lspd.History

open Lspd.Common Lspd.Interceptor Lspd.Lightning Lspd.Postgres Lspd.Process Lspd.Store

/-- A channel with this funding outpoint as lnd shows it, and what `ListChannels`
makes of it: among the open channels or among the pending ones. -/
inductive Shows (point : OutPoint) (channels : List Lnd.Channel)
    (pendingOpenChannels : List Lnd.PendingChannel) : Channel → Prop where
  | opened (member : c ∈ channels) (shown : c.channelPoint = point.string)
      (peer : decodeString c.remotePubkey = some peerId) :
      Shows point channels pendingOpenChannels
        { aliasScid := (Lnd.mapScidsFromChannel c).1
          confirmedScid := (Lnd.mapScidsFromChannel c).2
          channelPoint := newOutPointFromString c.channelPoint
          peerId }
  | pending (member : c ∈ pendingOpenChannels) (shown : c.channelPoint = point.string)
      (peer : decodeString c.remoteNodePub = some peerId) :
      Shows point channels pendingOpenChannels
        { aliasScid := none
          confirmedScid := none
          channelPoint := newOutPointFromString c.channelPoint
          peerId }

/-- Wherever lnd shows the channel, it is listed with the outpoint that
`OpenChannel` returned. -/
def ListedAsOpened (point : OutPoint) : Prop :=
  ∀ channels pendingOpenChannels channel, Shows point channels pendingOpenChannels channel →
    some channel ∈ Lnd.listChannels channels pendingOpenChannels ∧
      channel.channelPoint = Lnd.openedChannelPoint point.hash.1 point.index

/-- A round of channel sync that lists the channel writes what it listed to the
row that `Intercept` inserted when the channel was opened. -/
def SyncUpdates (point : OutPoint) : Prop :=
  ∀ (before inserted synced : Channels) (record : ChannelUpdate) (lastUpdate : Time)
    channels pendingOpenChannels channel updates,
    Lnd.openedChannelPoint point.hash.1 point.index = some record.channelPoint →
    updateChannels before [some record] = some inserted →
    Shows point channels pendingOpenChannels channel →
    channelUpdates record.nodeID lastUpdate (Lnd.listChannels channels pendingOpenChannels) =
      some updates →
    updateChannels inserted updates = some synced →
    ∃ listed row, some listed ∈ updates ∧ listed.row.key = record.row.key ∧
      synced.find? record.row.key = some row ∧ Carries row listed ∧
      listed.peerId = channel.peerId ∧ listed.aliasScid = channel.aliasScid ∧
      listed.confirmedScid = channel.confirmedScid

section points

variable {point : OutPoint} {channels : List Lnd.Channel}
  {pendingOpenChannels : List Lnd.PendingChannel} {channel : Channel}

theorem Shows.mem_listChannels (seen : Shows point channels pendingOpenChannels channel) :
    some channel ∈ Lnd.listChannels channels pendingOpenChannels := by
  cases seen with
  | opened member shown peer =>
    apply List.mem_append_left
    exact List.mem_map.mpr ⟨_, member, by rw [peer]; rfl⟩
  | pending member shown peer =>
    apply List.mem_append_right
    exact List.mem_filterMap.mpr ⟨_, member, by rw [peer]; rfl⟩

/-- Every list shows the id in the order of its text. -/
theorem Shows.channelPoint (seen : Shows point channels pendingOpenChannels channel) :
    channel.channelPoint = some point.reversed := by
  cases seen with
  | opened member shown peer => rw [shown, newOutPointFromString_string]
  | pending member shown peer => rw [shown, newOutPointFromString_string]

theorem openedChannelPoint_eq :
    Lnd.openedChannelPoint point.hash.1 point.index = some point :=
  newOutPoint_hash point point.index

theorem reversed_eq_iff : point.reversed = point ↔ point.hash.1.reverse = point.hash.1 := by
  obtain ⟨⟨bytes, length⟩, index⟩ := point
  simp [OutPoint.reversed]

/-- What is made of a list has an element for each of the list. -/
theorem exists_of_mapM {α β : Type} {f : α → Option β} {list : List α} {result : List β}
    (made : list.mapM f = some result) {element : α} (member : element ∈ list) :
    ∃ value ∈ result, f element = some value := by
  induction list generalizing result with
  | nil => cases member
  | cons head tail ih =>
    rw [List.mapM_cons] at made
    obtain ⟨first, same, rest⟩ := Option.bind_eq_some_iff.mp made
    obtain ⟨others, madeTail, whole⟩ := Option.bind_eq_some_iff.mp rest
    cases whole
    rcases List.mem_cons.mp member with rfl | later
    · exact ⟨first, .head _, same⟩
    · obtain ⟨value, present, known⟩ := ih madeTail later
      exact ⟨value, .tail _ present, known⟩

theorem syncUpdates_of_reversed (same : point.reversed = point) : SyncUpdates point := by
  intro before inserted synced record lastUpdate channels pending channel updates opened inserts
    seen made writes
  obtain rfl : point = record.channelPoint :=
    Option.some.inj (openedChannelPoint_eq.symm.trans opened)
  obtain ⟨entry, member, update⟩ := exists_of_mapM made seen.mem_listChannels
  dsimp only at update
  rw [seen.channelPoint, same] at update
  cases update
  have found := find?_updateChannels_of_mem writes member
  exact ⟨_, _, member, rfl, found, carries_written _ _, rfl, rfl, rfl⟩

/-- An outpoint survives its text, a list shows the outpoint that was opened and
sync updates the row of the opening, exactly when the bytes of the transaction
id read the same in both orders. -/
theorem channelPoint_kept_iff (point : OutPoint) :
    (newOutPointFromString point.string = some point ∧ ListedAsOpened point ∧
      SyncUpdates point) ↔ point.hash.1.reverse = point.hash.1 := by
  rw [← reversed_eq_iff, newOutPointFromString_string]
  constructor
  · intro kept
    exact Option.some.inj kept.1
  · intro same
    refine ⟨congrArg some same, ?_, syncUpdates_of_reversed same⟩
    intro channels pending channel seen
    refine ⟨seen.mem_listChannels, ?_⟩
    rw [seen.channelPoint, openedChannelPoint_eq, same]

end points

section sample

/-- A channel of an lnd node. -/
def sampleLndChannel : Lnd.Channel :=
  { remotePubkey := "03"
    channelPoint := sampleOutPoint.string
    active := true
    chanId := 17592186044416065537
    zeroConf := true
    zeroConfConfirmedScid := 0
    aliasScids := [] }

theorem sampleLndChannel_shown : Shows sampleOutPoint [sampleLndChannel] []
    ⟨some 17592186044416065537, none, newOutPointFromString sampleOutPoint.string, [3]⟩ :=
  .opened (.head _) rfl (by decide)

theorem listChannels_sample : Lnd.listChannels [sampleLndChannel] [] =
    [some ⟨some 17592186044416065537, none, some sampleOutPoint.reversed, [3]⟩] := by
  have peer : decodeString sampleLndChannel.remotePubkey = some [3] := by decide
  rw [Lnd.listChannels, List.map_singleton, peer, ← newOutPointFromString_string]
  rfl

/-- The round after the opening adds a second row: its outpoint has the bytes of
the id in the other order. -/
theorem second_row_inserted :
    newOutPointFromString sampleOutPoint.string ≠ some sampleOutPoint ∧
      ¬ ListedAsOpened sampleOutPoint ∧
      ∃ inserted updates synced, updateChannels .empty [some sampleRecord] = some inserted ∧
        channelUpdates [2] (30 * second) (Lnd.listChannels [sampleLndChannel] []) = some updates ∧
        updateChannels inserted updates = some synced ∧
        inserted.rows.length = 1 ∧ synced.rows.length = 2 := by
  have different : sampleOutPoint.reversed ≠ sampleOutPoint := by decide
  refine ⟨?_, ?_, ?_⟩
  · rw [newOutPointFromString_string]
    exact fun same => different (Option.some.inj same)
  · intro listed
    have same := (listed _ _ _ sampleLndChannel_shown).2
    rw [sampleLndChannel_shown.channelPoint, openedChannelPoint_eq] at same
    exact different (Option.some.inj same)
  · rw [listChannels_sample]
    exact ⟨_, _, _, rfl, rfl, rfl, rfl, rfl⟩

end sample

end Lspd.History
