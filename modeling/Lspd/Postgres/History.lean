import Lspd.Common.Intercept
import Lspd.Store.Table
import Mathlib.Data.List.Nodup

/-! The history store: channels, forwards with their sync offsets, and the
htlcs that paid for a channel opening. Each function is the effect of one
committed transaction; `none` is a statement Postgres refuses. -/

namespace Lspd.Postgres

open Lspd.Common Lspd.Lightning Lspd.Store

structure ChannelUpdate where
  nodeID : Bytes
  peerId : Bytes
  aliasScid : Option ShortChannelID
  confirmedScid : Option ShortChannelID
  channelPoint : OutPoint
  lastUpdate : Time
  deriving DecidableEq

structure ChannelRow where
  nodeid : Bytes
  peerid : Bytes
  aliasScid : Option Int64
  confirmedScid : Option Int64
  fundingTxId : Bytes
  fundingTxOutnum : Int
  firstSeen : Int
  lastUpdate : Int
  deriving DecidableEq

/-- `UNIQUE(nodeid, funding_tx_id, funding_tx_outnum)`. -/
def ChannelRow.key (row : ChannelRow) : Bytes × Bytes × Int :=
  (row.nodeid, row.fundingTxId, row.fundingTxOutnum)

/-- A `timestamp` column keeps microseconds. -/
def timestamp (time : Time) : Int := time / 1000

def ChannelUpdate.row (update : ChannelUpdate) : ChannelRow :=
  { nodeid := update.nodeID
    peerid := update.peerId
    aliasScid := update.aliasScid.map UInt64.toInt64
    confirmedScid := update.confirmedScid.map UInt64.toInt64
    fundingTxId := update.channelPoint.hash.1
    fundingTxOutnum := update.channelPoint.index.toNat
    firstSeen := timestamp update.lastUpdate
    lastUpdate := timestamp update.lastUpdate }

/-- The DO UPDATE clause of `UpdateChannels`: peer and first sighting stay. -/
def ChannelRow.merge (old new : ChannelRow) : ChannelRow :=
  { old with
    aliasScid := new.aliasScid
    confirmedScid := new.confirmedScid
    lastUpdate := new.lastUpdate }

abbrev Channels := Table ChannelRow ChannelRow.key

/-- `UpdateChannels`. Nil updates are skipped, and one command may not write
the same row twice. -/
def updateChannels (channels : Channels) (updates : List (Option ChannelUpdate)) :
    Option Channels :=
  let rows := (updates.filterMap id).map ChannelUpdate.row
  if (rows.map ChannelRow.key).Nodup then
    some (rows.foldl (fun table row => table.upsert row .merge (fun _ _ => rfl)) channels)
  else none

section UpdateChannels

variable {channels later : Channels} {updates : List (Option ChannelUpdate)}

private theorem updateChannels_eq (updated : updateChannels channels updates = some later) :
    ((updates.filterMap id).map ChannelUpdate.row).Pairwise (fun one two => one.key ≠ two.key) ∧
      ((updates.filterMap id).map ChannelUpdate.row).foldl (fun table row =>
        table.upsert row .merge (fun _ _ => rfl)) channels = later := by
  obtain ⟨distinct, same⟩ := Option.ite_none_right_eq_some.mp updated
  exact ⟨List.pairwise_map.mp distinct, Option.some.inj same⟩

/-- A written channel has its row, with the columns of the update. -/
theorem find?_updateChannels_of_mem (updated : updateChannels channels updates = some later)
    {update : ChannelUpdate} (member : some update ∈ updates) :
    later.find? update.row.key =
      some ((channels.find? update.row.key).elim update.row (·.merge update.row)) := by
  obtain ⟨distinct, rfl⟩ := updateChannels_eq updated
  have written : update.row ∈ (updates.filterMap id).map ChannelUpdate.row :=
    List.mem_map_of_mem (List.mem_filterMap.mpr ⟨_, member, rfl⟩)
  exact Table.find?_upserts _ _ distinct written channels

theorem find?_updateChannels_of_not_mem (updated : updateChannels channels updates = some later)
    {wanted : Bytes × Bytes × Int}
    (absent : ∀ update, some update ∈ updates → update.row.key ≠ wanted) :
    later.find? wanted = channels.find? wanted := by
  obtain ⟨_, rfl⟩ := updateChannels_eq updated
  refine Table.find?_upserts_of_not_mem _ _ ?_ channels
  intro row member
  obtain ⟨update, present, rfl⟩ := List.mem_map.mp member
  obtain ⟨entry, listed, same⟩ := List.mem_filterMap.mp present
  obtain rfl : entry = some update := same
  exact absent update listed

/-- No channel is written twice by one call. -/
theorem eq_of_updateChannels (updated : updateChannels channels updates = some later)
    {one two : ChannelUpdate} (first : some one ∈ updates) (second : some two ∈ updates)
    (same : one.row.key = two.row.key) : one = two := by
  obtain ⟨distinct, _⟩ := Option.ite_none_right_eq_some.mp updated
  rw [List.map_map] at distinct
  exact List.inj_on_of_nodup_map distinct (List.mem_filterMap.mpr ⟨_, first, rfl⟩)
    (List.mem_filterMap.mpr ⟨_, second, rfl⟩) same

end UpdateChannels

structure OpenChannelHtlc where
  nodeId : Bytes
  peerId : Bytes
  channelPoint : OutPoint
  originalAmountMsat : UInt64
  forwardAmountMsat : UInt64
  incomingAmountMsat : UInt64
  forwardTime : Time
  deriving DecidableEq

structure OpenChannelHtlcRow where
  nodeid : Bytes
  peerid : Bytes
  fundingTxId : Bytes
  fundingTxOutnum : Int
  forwardAmtMsat : Int64
  originalAmtMsat : Int64
  incomingAmtMsat : Int64
  forwardTime : Int64
  deriving DecidableEq

def OpenChannelHtlc.row (htlc : OpenChannelHtlc) : OpenChannelHtlcRow :=
  { nodeid := htlc.nodeId
    peerid := htlc.peerId
    fundingTxId := htlc.channelPoint.hash.1
    fundingTxOutnum := htlc.channelPoint.index.toNat
    forwardAmtMsat := htlc.forwardAmountMsat.toInt64
    originalAmtMsat := htlc.originalAmountMsat.toInt64
    incomingAmtMsat := htlc.incomingAmountMsat.toInt64
    forwardTime := .ofInt htlc.forwardTime }

structure Forward where
  identifier : String
  inChannel : ShortChannelID
  outChannel : ShortChannelID
  inMsat : UInt64
  outMsat : UInt64
  resolvedTime : Time
  deriving DecidableEq

structure ForwardRow where
  identifier : String
  resolvedTime : Int64
  nodeid : Bytes
  chanidIn : Int64
  chanidOut : Int64
  amtMsatIn : Int64
  amtMsatOut : Int64
  deriving DecidableEq

/-- `UNIQUE(nodeid, identifier)`. -/
def ForwardRow.key (row : ForwardRow) : Bytes × String := (row.nodeid, row.identifier)

/-- `copyFromForwards.Values`. -/
def Forward.row (nodeid : Bytes) (forward : Forward) : ForwardRow :=
  { identifier := forward.identifier
    resolvedTime := .ofInt forward.resolvedTime
    nodeid
    chanidIn := forward.inChannel.toInt64
    chanidOut := forward.outChannel.toInt64
    amtMsatIn := forward.inMsat.toInt64
    amtMsatOut := forward.outMsat.toInt64 }

abbrev ForwardingHistory := Table ForwardRow ForwardRow.key

/-- `InsertForwards`: rows already there stay as they are. -/
def insertForwards (history : ForwardingHistory) (forwards : List Forward) (nodeid : Bytes) :
    ForwardingHistory :=
  forwards.foldl (fun table forward => table.insertNew (forward.row nodeid)) history

/-- The DO UPDATE clause of `UpdateForwards`. -/
def ForwardRow.merge (old new : ForwardRow) : ForwardRow :=
  { old with
    resolvedTime := new.resolvedTime
    chanidIn := new.chanidIn
    chanidOut := new.chanidOut
    amtMsatIn := new.amtMsatIn
    amtMsatOut := new.amtMsatOut }

/-- `UpdateForwards`. -/
def updateForwards (history : ForwardingHistory) (forwards : List Forward) (nodeid : Bytes) :
    Option ForwardingHistory :=
  if (forwards.map Forward.identifier).Nodup then
    some (forwards.foldl (fun table forward =>
      table.upsert (forward.row nodeid) .merge (fun _ _ => rfl)) history)
  else none

theorem Forward.row_key (nodeid : Bytes) (forward : Forward) :
    (forward.row nodeid).key = (nodeid, forward.identifier) := rfl

/-- The update writes every column but those of the key. -/
theorem ForwardRow.merge_eq {old new : ForwardRow} (same : old.key = new.key) :
    old.merge new = new := by
  obtain ⟨identifier, resolvedTime, nodeid, chanidIn, chanidOut, amtMsatIn, amtMsatOut⟩ := new
  obtain ⟨node, name⟩ := Prod.mk.inj same
  simp only [ForwardRow.merge, node, name]

section InsertForwards

variable {history : ForwardingHistory} {forwards : List Forward} {nodeid : Bytes}

private theorem insertForwards_eq : insertForwards history forwards nodeid =
    (forwards.map (Forward.row nodeid)).foldl Table.insertNew history := by
  rw [insertForwards, List.foldl_map]

theorem find?_insertForwards {wanted : Bytes × String} {row : ForwardRow}
    (found : history.find? wanted = some row) :
    (insertForwards history forwards nodeid).find? wanted = some row := by
  rw [insertForwards_eq]
  exact Table.find?_inserts_of_some found _

theorem exists_find?_insertForwards {forward : Forward} (member : forward ∈ forwards) :
    ∃ row, (insertForwards history forwards nodeid).find? (nodeid, forward.identifier) =
      some row := by
  rw [insertForwards_eq, ← Forward.row_key]
  exact Table.exists_find?_inserts (List.mem_map_of_mem member) history

theorem mem_of_mem_insertForwards {row : ForwardRow}
    (member : row ∈ (insertForwards history forwards nodeid).rows) :
    row ∈ history.rows ∨ ∃ forward ∈ forwards, forward.row nodeid = row := by
  rw [insertForwards_eq] at member
  exact (Table.mem_of_mem_inserts member).imp_right List.mem_map.mp

end InsertForwards

section UpdateForwards

variable {history later : ForwardingHistory} {forwards : List Forward} {nodeid : Bytes}

private theorem updateForwards_eq (updated : updateForwards history forwards nodeid = some later) :
    (forwards.map Forward.identifier).Nodup ∧
      (forwards.map (Forward.row nodeid)).foldl (fun table row =>
        table.upsert row .merge (fun _ _ => rfl)) history = later := by
  obtain ⟨distinct, same⟩ := Option.ite_none_right_eq_some.mp updated
  exact ⟨distinct, by rw [List.foldl_map]; exact Option.some.inj same⟩

theorem find?_updateForwards_of_mem (updated : updateForwards history forwards nodeid = some later)
    {forward : Forward} (member : forward ∈ forwards) :
    later.find? (nodeid, forward.identifier) = some (forward.row nodeid) := by
  obtain ⟨distinct, rfl⟩ := updateForwards_eq updated
  rw [← Forward.row_key]
  refine Table.find?_upserts_of_mem _ _ (fun _ _ => ForwardRow.merge_eq) ?_
    (List.mem_map_of_mem member) history
  rw [List.pairwise_map]
  refine (List.pairwise_map.mp distinct).imp ?_
  intro one two different same
  exact different (Prod.mk.inj same).2

theorem find?_updateForwards_of_not_mem
    (updated : updateForwards history forwards nodeid = some later) {identifier : String}
    (absent : ∀ forward ∈ forwards, forward.identifier ≠ identifier) :
    later.find? (nodeid, identifier) = history.find? (nodeid, identifier) := by
  obtain ⟨_, rfl⟩ := updateForwards_eq updated
  refine Table.find?_upserts_of_not_mem _ _ ?_ history
  intro row member same
  obtain ⟨forward, present, rfl⟩ := List.mem_map.mp member
  exact absent forward present (Prod.mk.inj same).2

end UpdateForwards

/-- `FetchLndForwardOffset`: the latest `resolved_time` among the rows of the node. -/
def fetchLndForwardOffset (history : ForwardingHistory) (nodeId : Bytes) : Option Time :=
  ((history.rows.filter (·.nodeid = nodeId)).map (·.resolvedTime.toInt)).max?

theorem mem_of_fetchLndForwardOffset {history : ForwardingHistory} {nodeId : Bytes} {last : Time}
    (fetched : fetchLndForwardOffset history nodeId = some last) :
    ∃ row ∈ history.rows, row.nodeid = nodeId ∧ row.resolvedTime.toInt = last := by
  have member := List.max?_mem fetched
  simpa [and_assoc] using member

structure OffsetsRow where
  nodeid : Bytes
  lastCreatedIndex : Int64
  lastUpdatedIndex : Int64
  deriving DecidableEq

abbrev ClnForwardOffsets := Table OffsetsRow OffsetsRow.nodeid

/-- `FetchClnForwardOffsets`. -/
def fetchClnForwardOffsets (offsets : ClnForwardOffsets) (nodeId : Bytes) : UInt64 × UInt64 :=
  match offsets.find? nodeId with
  | none => (0, 0)
  | some row => (row.lastCreatedIndex.toUInt64, row.lastUpdatedIndex.toUInt64)

/-- `SetClnForwardOffsets`. -/
def setClnForwardOffsets (offsets : ClnForwardOffsets) (nodeId : Bytes) (created updated : UInt64) :
    ClnForwardOffsets :=
  offsets.upsert ⟨nodeId, created.toInt64, updated.toInt64⟩
    (fun old new => { old with
      lastCreatedIndex := new.lastCreatedIndex
      lastUpdatedIndex := new.lastUpdatedIndex })
    (fun _ _ => rfl)

theorem fetch_setClnForwardOffsets (offsets : ClnForwardOffsets) (nodeId other : Bytes)
    (created updated : UInt64) :
    fetchClnForwardOffsets (setClnForwardOffsets offsets nodeId created updated) other =
      if other = nodeId then (created, updated) else fetchClnForwardOffsets offsets other := by
  unfold fetchClnForwardOffsets setClnForwardOffsets
  rw [Table.find?_upsert]
  by_cases same : other = nodeId
  · cases found : offsets.find? other <;> simp [same]
  · simp [same]

end Lspd.Postgres
