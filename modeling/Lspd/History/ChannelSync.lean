import Lspd.Interceptor.System
import Lspd.Interceptor.Writes
import Lspd.Lightning.Client
import Lspd.Process.Machine

/-! The channel history of a node has two kinds of writers: the rounds of
`ChannelSync` and the `Intercept` calls that opened a channel. Each writes what
it saw of a channel some time after it saw it. -/

namespace Lspd.History

open Lspd.Common Lspd.Interceptor Lspd.Lightning Lspd.Postgres Lspd.Process Lspd.Store

/-- What `ListChannels` of either backend can return. -/
inductive Listing : List (Option Channel) → Prop where
  | lnd (channels : List Lnd.Channel) (pendingOpenChannels : List Lnd.PendingChannel) :
      Listing (Lnd.listChannels channels pendingOpenChannels)
  | cln (channels : List Cln.ListpeerchannelsChannels)
      (listed : Cln.listChannels channels = .ok result) : Listing result

/-- The updates `channelsSynchronizeNodeOnce` makes of a list. A channel without
an outpoint makes `UpdateChannels` panic. -/
def channelUpdates (nodeId : Bytes) (lastUpdate : Time) (channels : List (Option Channel)) :
    Option (List (Option ChannelUpdate)) :=
  channels.mapM fun
    | none => some none
    | some c => c.channelPoint.map fun channelPoint => some
        { nodeID := nodeId
          peerId := c.peerId
          aliasScid := c.aliasScid
          confirmedScid := c.confirmedScid
          channelPoint
          lastUpdate }

/-- A round that has read the clock, or a writer with its updates at hand. -/
inductive Writer where
  | idle
  | timed (lastUpdate : Time)
  | ready (updates : List (Option ChannelUpdate))
  | finished

structure State where
  channels : Channels
  writers : Nat → Writer
  /-- The updates of the node that have been committed. -/
  applied : List ChannelUpdate

def State.set (s : State) (n : Nat) (writer : Writer) : State :=
  { s with writers := Function.update s.writers n writer }

inductive Action where
  | timed
  | listed
  | recorded
  | applied (n : Nat)
  | failed
  | others

/-- The steps of the writers. `UpdateChannels` takes effect as a whole or not at
all, whatever it returns; rows of other nodes change at any time. -/
inductive Step (nodeId : Bytes) (s : State) : Action → State → Prop where
  | begin (n : Nat) (lastUpdate : Time) (here : s.writers n = .idle) :
      Step nodeId s .timed (s.set n (.timed lastUpdate))
  | list (n : Nat) (here : s.writers n = .timed lastUpdate) (listing : Listing channels)
      (made : channelUpdates nodeId lastUpdate channels = some updates) :
      Step nodeId s .listed (s.set n (.ready updates))
  | record (n : Nat) (update : ChannelUpdate) (here : s.writers n = .idle)
      (own : update.nodeID = nodeId) : Step nodeId s .recorded (s.set n (.ready [some update]))
  | apply (n : Nat) (here : s.writers n = .ready updates)
      (committed : updateChannels s.channels updates = some channels) :
      Step nodeId s (.applied n)
        { s.set n .finished with channels, applied := s.applied ++ updates.filterMap id }
  | fail (n : Nat) : Step nodeId s .failed (s.set n .finished)
  | others (kept : ∀ wanted : Bytes × Bytes × Int, wanted.1 = nodeId →
      Table.find? channels wanted = s.channels.find? wanted) :
      Step nodeId s .others { s with channels }

def writing (nodeId : Bytes) : Machine State Action where
  Initial s := (∀ wanted : Bytes × Bytes × Int, wanted.1 = nodeId → s.channels.find? wanted = none) ∧
    s.writers = (fun _ => .idle) ∧ s.applied = []
  Step := Step nodeId

/-- The `record` step is what `Intercept` does: every write of one of its calls is
a single update of the own node with the time read just before. -/
theorem stamped_of_reachable {sha256 : Bytes → Bytes} {i : Interceptor} {world : World}
    {group : Calls} {call : Call} (reachable : (service sha256 i).Reachable world group)
    (member : call ∈ group.executions) {before after : Trail}
    {updates : List (Option ChannelUpdate)} {reply : Except String Unit}
    (split : call.history = before ++ ⟨.updateChannels updates, reply⟩ :: after) :
    Stamped i before updates :=
  (Service.Reachable.sound (intercept_stamps (i := i)) reachable).obeyed call member before
    ⟨.updateChannels updates, reply⟩ after split

/-- The columns of a row that an update sets. -/
def Carries (row : ChannelRow) (update : ChannelUpdate) : Prop :=
  row.aliasScid = update.aliasScid.map UInt64.toInt64 ∧
    row.confirmedScid = update.confirmedScid.map UInt64.toInt64 ∧
    row.lastUpdate = timestamp update.lastUpdate

/-- No update of the same channel is later than this one. -/
def IsLatest (applied : List ChannelUpdate) (update : ChannelUpdate) : Prop :=
  ∀ other ∈ applied, other.row.key = update.row.key → other.lastUpdate ≤ update.lastUpdate

/-- The row of every channel carries the latest update of it. -/
structure Latest (nodeId : Bytes) (s : State) : Prop where
  rows : ∀ wanted row, wanted.1 = nodeId → s.channels.find? wanted = some row →
    ∃ update ∈ s.applied, update.row.key = wanted ∧ Carries row update ∧ IsLatest s.applied update
  present : ∀ update ∈ s.applied, update.nodeID = nodeId →
    ∃ row, s.channels.find? update.row.key = some row

/-- Updates of a channel are committed in the order of their times. -/
def InOrder (s : State) : Action → Prop
  | .applied n => ∀ updates, s.writers n = .ready updates →
      ∀ update, some update ∈ updates → IsLatest s.applied update
  | _ => True

variable {nodeId : Bytes} {s later : State} {action : Action}

private theorem mem_written {updates : List (Option ChannelUpdate)} {update : ChannelUpdate} :
    update ∈ updates.filterMap id ↔ some update ∈ updates := by
  simp [List.mem_filterMap]

/-- A committed write leaves the columns of its update, whether the row is new or not. -/
theorem carries_written (old : Option ChannelRow) (update : ChannelUpdate) :
    Carries (old.elim update.row (·.merge update.row)) update := by
  cases old <;> exact ⟨rfl, rfl, rfl⟩

theorem Latest.apply {channels : Channels} {updates : List (Option ChannelUpdate)}
    (latest : Latest nodeId s) (committed : updateChannels s.channels updates = some channels)
    (inOrder : ∀ update, some update ∈ updates → IsLatest s.applied update) :
    Latest nodeId { later with channels, applied := s.applied ++ updates.filterMap id } := by
  constructor
  · intro wanted row own found
    by_cases written : ∃ update, some update ∈ updates ∧ update.row.key = wanted
    · obtain ⟨update, member, rfl⟩ := written
      dsimp only at found
      rw [find?_updateChannels_of_mem committed member] at found
      obtain rfl := Option.some.inj found
      refine ⟨update, List.mem_append_right _ (mem_written.mpr member), rfl,
        carries_written _ update, ?_⟩
      intro other present same
      rcases List.mem_append.mp present with before | now
      · exact inOrder update member other before same
      · rw [eq_of_updateChannels committed (mem_written.mp now) member same]
    · have absent : ∀ update, some update ∈ updates → update.row.key ≠ wanted :=
        fun update member same => written ⟨update, member, same⟩
      dsimp only at found
      rw [find?_updateChannels_of_not_mem committed absent] at found
      obtain ⟨update, known, key, carries, maximal⟩ := latest.rows wanted row own found
      refine ⟨update, List.mem_append_left _ known, key, carries, ?_⟩
      intro other present same
      rcases List.mem_append.mp present with before | now
      · exact maximal other before same
      · exact absurd (same.trans key) (absent other (mem_written.mp now))
  · intro update member own
    by_cases written : ∃ other, some other ∈ updates ∧ other.row.key = update.row.key
    · obtain ⟨other, present, same⟩ := written
      exact ⟨_, same ▸ find?_updateChannels_of_mem committed present⟩
    · have absent : ∀ other, some other ∈ updates → other.row.key ≠ update.row.key :=
        fun other present same => written ⟨other, present, same⟩
      rcases List.mem_append.mp member with before | now
      · obtain ⟨row, found⟩ := latest.present update before own
        exact ⟨row, (find?_updateChannels_of_not_mem committed absent).trans found⟩
      · exact absurd rfl (absent update (mem_written.mp now))

theorem Latest.step (latest : Latest nodeId s) (inOrder : InOrder s action)
    (step : Step nodeId s action later) : Latest nodeId later := by
  cases step with
  | apply n here committed => exact latest.apply committed (inOrder _ here)
  | others kept =>
    constructor
    · intro wanted row own found
      exact latest.rows wanted row own ((kept wanted own).symm.trans found)
    · intro update member own
      obtain ⟨row, found⟩ := latest.present update member own
      exact ⟨row, (kept _ own).trans found⟩
  | begin n lastUpdate here => exact ⟨latest.rows, latest.present⟩
  | list n here listing made => exact ⟨latest.rows, latest.present⟩
  | record n update here own => exact ⟨latest.rows, latest.present⟩
  | fail n => exact ⟨latest.rows, latest.present⟩

/-- In every run that commits the updates of a channel in the order of their
times, the row of each channel carries the latest of them. -/
theorem rows_carry_latest (reachable : (writing nodeId).ReachableWhen InOrder s) :
    Latest nodeId s := by
  refine reachable.induct _ ?_ fun _ _ _ _ latest inOrder step => latest.step inOrder step
  rintro s ⟨empty, _, none⟩
  constructor
  · intro wanted row own found
    rw [empty wanted own] at found
    cases found
  · simp [none]

section sample

/-- A channel of a cln node that is not confirmed yet. -/
def sampleChannel : Cln.ListpeerchannelsChannels :=
  { peerId := [3]
    shortChannelId := none
    aliasLocal := some "16000000x1x1"
    fundingTxid := (List.range 32).map UInt8.ofNat
    fundingOutnum := some 0 }

def sampleOutPoint : OutPoint := ⟨⟨((List.range 32).map UInt8.ofNat).reverse, by decide⟩, 0⟩

/-- What a round that began after ten seconds makes of it. -/
def sampleSnapshot : ChannelUpdate :=
  { nodeID := [2]
    peerId := [3]
    aliasScid := some 17592186044416065537
    confirmedScid := none
    channelPoint := sampleOutPoint
    lastUpdate := 10 * second }

/-- What `Intercept` writes ten seconds later, after the channel was confirmed. -/
def sampleRecord : ChannelUpdate :=
  { sampleSnapshot with confirmedScid := some 769658139444838401, lastUpdate := 20 * second }

def sampleStart : State := ⟨.empty, fun _ => .idle, []⟩

/-- The round has its snapshot. -/
def sampleListed : State :=
  (sampleStart.set 0 (.timed (10 * second))).set 0 (.ready [some sampleSnapshot])

theorem sampleListed_reachable : (writing [2]).ReachableWhen InOrder sampleListed := by
  have first : (writing [2]).ReachableWhen InOrder sampleStart :=
    .start ⟨fun _ _ => rfl, rfl, rfl⟩
  have timed := first.step (by exact trivial) (.begin 0 (10 * second) rfl)
  have listing : Listing [some ⟨sampleSnapshot.aliasScid, none, some sampleOutPoint, [3]⟩] :=
    .cln [sampleChannel] (by decide)
  exact timed.step (by exact trivial) (.list 0 rfl listing rfl)

/-- A round that is through before `Intercept` writes. -/
theorem rows_carry_latest_sample : ∃ s, (writing [2]).ReachableWhen InOrder s ∧
    s.applied = [sampleSnapshot, sampleRecord] ∧ Latest [2] s := by
  have early := sampleListed_reachable.step (by
    rintro updates here update member other present
    cases present) (.apply 0 rfl rfl)
  have recorded := early.step (by exact trivial) (.record 1 sampleRecord rfl rfl)
  have late := recorded.step (by
    rintro updates here update member other present same
    obtain rfl : [some sampleRecord] = updates := Writer.ready.inj here
    obtain rfl : update = sampleRecord := by simpa using member
    obtain rfl : other = sampleSnapshot := by simpa [sampleListed, sampleStart, State.set] using present
    decide) (.apply 1 rfl rfl)
  exact ⟨_, late, rfl, rows_carry_latest late⟩

/-- A round that writes its snapshot after `Intercept` has written: the row loses
the confirmed scid. -/
theorem stale_snapshot_overwrites : ∃ s, (writing [2]).Reachable s ∧
    s.applied = [sampleRecord, sampleSnapshot] ∧ ¬ Latest [2] s := by
  have recorded := sampleListed_reachable.reachable.step (.record 1 sampleRecord rfl rfl)
  have stale := (recorded.step (.apply 1 rfl rfl)).step (.apply 0 rfl rfl)
  refine ⟨_, stale, rfl, fun latest => ?_⟩
  obtain ⟨update, member, _, carries, maximal⟩ := latest.rows sampleSnapshot.row.key _ rfl rfl
  have known : update = sampleRecord ∨ update = sampleSnapshot := by
    simpa [sampleListed, sampleStart, State.set] using member
  rcases known with rfl | rfl
  · exact absurd carries.2.1 (by decide)
  · exact absurd (maximal sampleRecord (.head _) rfl) (by decide)

end sample

end Lspd.History
