import Lspd.Common.Intercept
import Lspd.Process.Machine
import Lspd.Process.Program
import Lspd.Store.Table
import Mathlib.Data.List.Induction
import Mathlib.Data.List.Nodup

/-! The `notification_subscriptions` table under whole sequences of calls, in
which any statement may fail, against the urls that are subscribed by what the
calls reported. -/

namespace Lspd.Postgres.Notifications

open Lspd.Common Lspd.Lightning Lspd.Process Lspd.Store

structure Subscription where
  pubkey : Bytes
  url : String
  createdAt : Int
  refreshedAt : Int
  deriving DecidableEq

/-- `UNIQUE (pubkey, url)`. -/
def Subscription.key (row : Subscription) : Bytes × String := (row.pubkey, row.url)

abbrev Subscriptions := Table Subscription Subscription.key

/-- `time.Time.UnixMicro`. -/
def unixMicro (time : Time) : Int := time / 1000

/-- The DO UPDATE clause of `Register`. -/
def Subscription.refresh (old new : Subscription) : Subscription :=
  { old with refreshedAt := new.refreshedAt }

theorem Subscription.refresh_key (old new : Subscription) : (old.refresh new).key = old.key := rfl

/-- The calls that write; `now` is the time `Register` reads. -/
inductive Operation where
  | register (pubkey url : String) (now : Time)
  | unsubscribe (pubkey url : String)
  | removeExpired (before : Time)
  deriving DecidableEq

section store

variable (subscriptions : Subscriptions)

/-- `Register`, whose statement runs or fails without effect. The result is whether
no error is returned, and the table. -/
def register (pubkey url : String) (now : Time) (runs : Bool) : Bool × Subscriptions :=
  match decodeString pubkey with
  | none => (false, subscriptions)
  | some pk =>
    if runs then
      (true, subscriptions.upsert ⟨pk, url, unixMicro now, unixMicro now⟩ .refresh Subscription.refresh_key)
    else (false, subscriptions)

/-- `Unsubscribe`: the error of the statement is assigned and nil is returned. -/
def unsubscribe (pubkey url : String) (runs : Bool) : Bool × Subscriptions :=
  match decodeString pubkey with
  | none => (false, subscriptions)
  | some pk => (true, if runs then subscriptions.delete (pk, url) else subscriptions)

/-- `RemoveExpired`: `DELETE ... WHERE refreshed_at < $1`. -/
def removeExpired (before : Time) (runs : Bool) : Bool × Subscriptions :=
  if runs then (true, subscriptions.filter fun row => ¬ row.refreshedAt < unixMicro before)
  else (false, subscriptions)

def exec : Operation → Bool → Bool × Subscriptions
  | .register pubkey url now, runs => register subscriptions pubkey url now runs
  | .unsubscribe pubkey url, runs => unsubscribe subscriptions pubkey url runs
  | .removeExpired before, runs => removeExpired subscriptions before runs

/-- The urls of a key, in the order of the table. -/
def urls (pk : Bytes) : List String :=
  (subscriptions.rows.filter fun row => row.pubkey = pk).map Subscription.url

/-- What `GetRegistrations` can return, and whether the rows broke off. They come in
any order; `rows.Err()` is not looked at, so that the rows that arrived before
an error are a result like any other. -/
inductive GetRegistrations (pubkey : String) : Bool → Except String (List String) → Prop where
  | failed (message : String) : GetRegistrations pubkey false (.error message)
  | read (found : List String) (decodes : decodeString pubkey = some pk)
      (order : found.Perm (urls subscriptions pk)) : GetRegistrations pubkey false (.ok found)
  | brokeOff (found : List String) (decodes : decodeString pubkey = some pk)
      (order : found.Perm (urls subscriptions pk)) (arrived : Nat) (fewer : arrived < found.length) :
      GetRegistrations pubkey true (.ok (found.take arrived))

end store

/-- One call and whether it reported success. -/
structure Entry where
  operation : Operation
  succeeded : Bool

structure State where
  subscriptions : Subscriptions
  log : List Entry

/-- Every call, with a statement that runs or fails. -/
def store : Machine State (Operation × Bool) where
  Initial s := s = ⟨.empty, []⟩
  Step s action later := later =
    ⟨(exec s.subscriptions action.1 action.2).2,
      s.log ++ [⟨action.1, (exec s.subscriptions action.1 action.2).1⟩]⟩

/-- A call that reported to have registered the url at this time. -/
def Entry.Registers (pk : Bytes) (url : String) (time : Int) : Entry → Prop
  | ⟨.register pubkey other now, true⟩ =>
    decodeString pubkey = some pk ∧ other = url ∧ unixMicro now = time
  | _ => False

/-- A call that reported success and ends a registration made at this time: it
registers the url anew, unsubscribes it, or removes what expired by then. -/
def Entry.Ends (pk : Bytes) (url : String) (time : Int) : Entry → Prop
  | ⟨.register pubkey other _, true⟩ => decodeString pubkey = some pk ∧ other = url
  | ⟨.unsubscribe pubkey other, true⟩ => decodeString pubkey = some pk ∧ other = url
  | ⟨.removeExpired before, true⟩ => time < unixMicro before
  | _ => False

/-- The last successful registration of the url was made at this time, and it was
neither unsubscribed nor removed since. -/
def RegisteredAt (log : List Entry) (pk : Bytes) (url : String) (time : Int) : Prop :=
  ∃ before entry after, log = before ++ entry :: after ∧ entry.Registers pk url time ∧
    ∀ later ∈ after, ¬ later.Ends pk url time

/-- The url is subscribed by what the calls reported. -/
def Subscribed (log : List Entry) (pk : Bytes) (url : String) : Prop :=
  ∃ time, RegisteredAt log pk url time

/-- The operation has done to the table what it is for. -/
def TookEffect (before after : Subscriptions) : Operation → Prop
  | .register pubkey url now => ∃ pk, decodeString pubkey = some pk ∧
      (∃ row, after.find? (pk, url) = some row ∧ row.refreshedAt = unixMicro now) ∧
      ∀ other, other ≠ (pk, url) → after.find? other = before.find? other
  | .unsubscribe pubkey url => ∃ pk, decodeString pubkey = some pk ∧
      after.find? (pk, url) = none ∧
      ∀ other, other ≠ (pk, url) → after.find? other = before.find? other
  | .removeExpired cutoff => ∀ row, row ∈ after.rows ↔
      row ∈ before.rows ∧ unixMicro cutoff ≤ row.refreshedAt

/-- The DELETE of an `Unsubscribe` runs, or there is nothing to delete. -/
def Deletes (s : State) : Operation × Bool → Prop
  | (.unsubscribe pubkey url, runs) => runs ∨
      ∀ pk, decodeString pubkey = some pk → s.subscriptions.find? (pk, url) = none
  | _ => True

section log

variable {log : List Entry} {entry : Entry} {pk : Bytes} {url : String} {time : Int}

theorem registeredAt_nil : ¬ RegisteredAt [] pk url time := by
  rintro ⟨before, entry, after, split, _⟩
  simp at split

theorem registeredAt_snoc : RegisteredAt (log ++ [entry]) pk url time ↔
    entry.Registers pk url time ∨ RegisteredAt log pk url time ∧ ¬ entry.Ends pk url time := by
  constructor
  · rintro ⟨before, first, after, split, registers, kept⟩
    rcases eq_or_split_of_snoc split with ⟨_, _, rfl⟩ | ⟨init, rfl, rfl⟩
    · exact .inl registers
    · refine .inr ⟨⟨before, first, init, rfl, registers, ?_⟩, kept entry (by simp)⟩
      intro later member
      exact kept later (List.mem_append_left _ member)
  · rintro (registers | ⟨⟨before, first, after, rfl, registers, kept⟩, goes⟩)
    · exact ⟨log, entry, [], rfl, registers, by simp⟩
    · refine ⟨before, first, after ++ [entry], by simp, registers, ?_⟩
      intro later member
      rcases List.mem_append.mp member with old | new
      · exact kept later old
      · rw [List.mem_singleton.mp new]
        exact goes

end log

section table

variable (subscriptions : Subscriptions) {pk : Bytes} {url : String}

/-- When the row of a url was refreshed last. -/
def refreshed (wanted : Bytes × String) : Option Int :=
  (subscriptions.find? wanted).map Subscription.refreshedAt

theorem refreshed_upsert (row : Subscription) (wanted : Bytes × String) :
    refreshed (subscriptions.upsert row .refresh Subscription.refresh_key) wanted =
      if wanted = row.key then some row.refreshedAt else refreshed subscriptions wanted := by
  rw [refreshed, Table.find?_upsert]
  split
  · cases subscriptions.find? wanted <;> rfl
  · rfl

theorem refreshed_delete (target wanted : Bytes × String) :
    refreshed (subscriptions.delete target) wanted =
      if wanted = target then none else refreshed subscriptions wanted := by
  rw [refreshed, Table.find?_delete]
  split <;> rfl

theorem refreshed_filter (cutoff : Int) (wanted : Bytes × String) :
    refreshed (subscriptions.filter fun row => ¬ row.refreshedAt < cutoff) wanted =
      (refreshed subscriptions wanted).filter fun time => ¬ time < cutoff := by
  rw [refreshed, Table.find?_filter, refreshed]
  cases subscriptions.find? wanted with
  | none => rfl
  | some row => simp only [Option.filter, Option.map_some]; split <;> rfl

variable {subscriptions}

theorem mem_urls : url ∈ urls subscriptions pk ↔
    ∃ time, refreshed subscriptions (pk, url) = some time := by
  simp only [urls, List.mem_map, List.mem_filter, decide_eq_true_eq, refreshed, Option.map_eq_some_iff,
    Table.find?_eq_some_iff]
  constructor
  · rintro ⟨row, ⟨member, rfl⟩, rfl⟩
    exact ⟨_, row, ⟨member, rfl⟩, rfl⟩
  · rintro ⟨_, row, ⟨member, same⟩, _⟩
    cases same
    exact ⟨row, ⟨member, rfl⟩, rfl⟩

theorem urls_nodup : (urls subscriptions pk).Nodup := by
  apply List.pairwise_map.mpr
  apply (subscriptions.unique.filter _).imp_of_mem
  intro one two first second different same
  have owner := of_decide_eq_true (List.mem_filter.mp first).2
  have other := of_decide_eq_true (List.mem_filter.mp second).2
  exact different (Prod.ext (owner.trans other.symm) same)

end table

section step

variable {s : State} {operation : Operation} {runs : Bool}

/-- What one call does to the times of the rows is what it reports to have done. -/
theorem refreshed_exec (deletes : Deletes s (operation, runs)) (pk : Bytes) (url : String)
    (time : Int) :
    refreshed (exec s.subscriptions operation runs).2 (pk, url) = some time ↔
      Entry.Registers pk url time ⟨operation, (exec s.subscriptions operation runs).1⟩ ∨
        refreshed s.subscriptions (pk, url) = some time ∧
          ¬ Entry.Ends pk url time ⟨operation, (exec s.subscriptions operation runs).1⟩ := by
  cases operation with
  | register pubkey other now =>
    rw [exec, register]
    cases decodes : decodeString pubkey with
    | none => simp [Entry.Registers, Entry.Ends]
    | some owner =>
      cases runs with
      | false => simp [Entry.Registers, Entry.Ends]
      | true =>
        simp only [if_true, refreshed_upsert, Entry.Registers, Entry.Ends, decodes,
          Subscription.key, Prod.mk.injEq, Option.some.injEq]
        by_cases same : pk = owner ∧ url = other
        · simp [same]
        · simp [same, eq_comm (a := owner), eq_comm (a := other), ← and_assoc]
  | unsubscribe pubkey other =>
    rw [exec, unsubscribe]
    cases decodes : decodeString pubkey with
    | none => simp [Entry.Registers, Entry.Ends]
    | some owner =>
      cases runs with
      | false =>
        -- A statement that fails is reported as a success; there was no row to delete.
        have absent : refreshed s.subscriptions (owner, other) = none := by
          rcases deletes with ran | absent
          · cases ran
          · rw [refreshed, absent owner decodes, Option.map_none]
        simp only [Entry.Registers, Entry.Ends, decodes, Option.some.injEq, false_or]
        constructor
        · intro found
          refine ⟨found, ?_⟩
          rintro ⟨rfl, rfl⟩
          exact absurd (absent.symm.trans found) (by simp)
        · intro found
          exact found.1
      | true =>
        simp only [if_true, refreshed_delete, Entry.Registers, Entry.Ends, decodes, Prod.mk.injEq,
          Option.some.injEq, false_or]
        by_cases same : pk = owner ∧ url = other
        · simp [same]
        · simp [same, eq_comm (a := owner), eq_comm (a := other)]
  | removeExpired cutoff =>
    rw [exec, removeExpired]
    cases runs with
    | false => simp [Entry.Registers, Entry.Ends]
    | true =>
      simp only [if_true, refreshed_filter, Entry.Registers, Entry.Ends, Option.filter_eq_some_iff]
      simp

theorem tookEffect_exec (deletes : Deletes s (operation, runs))
    (succeeded : (exec s.subscriptions operation runs).1 = true) :
    TookEffect s.subscriptions (exec s.subscriptions operation runs).2 operation := by
  cases operation with
  | register pubkey url now =>
    rw [exec, register] at succeeded ⊢
    cases decodes : decodeString pubkey with
    | none => simp [decodes] at succeeded
    | some pk =>
      cases runs with
      | false => simp [decodes] at succeeded
      | true =>
        refine ⟨pk, decodes, ?_, ?_⟩
        · have refreshes := refreshed_upsert s.subscriptions
            ⟨pk, url, unixMicro now, unixMicro now⟩ (pk, url)
          exact Option.map_eq_some_iff.mp (refreshes.trans (if_pos rfl))
        · intro other different
          exact (Table.find?_upsert ..).trans (if_neg different)
  | unsubscribe pubkey url =>
    rw [exec, unsubscribe] at succeeded ⊢
    cases decodes : decodeString pubkey with
    | none => simp [decodes] at succeeded
    | some pk =>
      refine ⟨pk, decodes, ?_⟩
      cases runs with
      | false =>
        rcases deletes with ran | absent
        · cases ran
        · exact ⟨absent pk decodes, fun _ _ => rfl⟩
      | true =>
        dsimp only
        rw [if_pos rfl]
        constructor
        · rw [Table.find?_delete, if_pos rfl]
        · intro other different
          rw [Table.find?_delete, if_neg different]
  | removeExpired cutoff =>
    rw [exec, removeExpired] at succeeded ⊢
    cases runs with
    | false => simp at succeeded
    | true =>
      intro row
      rw [if_pos rfl, Table.filter, List.mem_filter, decide_eq_true_eq, Int.not_lt]

/-- The times in the table are those the log reports. -/
def Agrees (s : State) : Prop :=
  ∀ pk url time, refreshed s.subscriptions (pk, url) = some time ↔ RegisteredAt s.log pk url time

theorem agrees_of_reachable (reachable : store.ReachableWhen Deletes s) : Agrees s := by
  refine reachable.induct Agrees ?_ ?_
  · rintro s rfl pk url time
    exact iff_of_false (by simp [refreshed, Table.find?, Table.empty]) registeredAt_nil
  · rintro s ⟨operation, runs⟩ later _ agrees deletes rfl pk url time
    rw [refreshed_exec deletes, registeredAt_snoc, agrees]

/-- In every run in which no `Unsubscribe` loses its DELETE, a call that reports
success has taken effect, and a read that gets all its rows returns each
subscribed url once and nothing else. -/
theorem registrations_subscribed (reachable : store.ReachableWhen Deletes s) :
    (∀ operation runs, Deletes s (operation, runs) →
      (exec s.subscriptions operation runs).1 = true →
        TookEffect s.subscriptions (exec s.subscriptions operation runs).2 operation) ∧
    ∀ pubkey result, GetRegistrations s.subscriptions pubkey false (.ok result) →
      ∃ pk, decodeString pubkey = some pk ∧ result.Nodup ∧
        ∀ url, url ∈ result ↔ Subscribed s.log pk url := by
  refine ⟨fun operation runs deletes succeeded => tookEffect_exec deletes succeeded, ?_⟩
  rintro pubkey result ⟨⟩
  rename_i pk decodes order
  refine ⟨pk, decodes, order.nodup_iff.mpr urls_nodup, fun url => ?_⟩
  rw [order.mem_iff, mem_urls]
  exact exists_congr fun time => agrees_of_reachable reachable pk url time

end step

section sample

/-- The state after some calls, each with a statement that runs or fails. -/
def after (actions : List (Operation × Bool)) : State :=
  actions.foldl (fun s action => ⟨(exec s.subscriptions action.1 action.2).2,
    s.log ++ [⟨action.1, (exec s.subscriptions action.1 action.2).1⟩]⟩) ⟨.empty, []⟩

theorem after_reachable (actions : List (Operation × Bool)) : store.Reachable (after actions) := by
  induction actions using List.reverseRecOn with
  | nil => exact .start rfl
  | append_singleton actions action ih =>
    rw [after, List.foldl_append]
    exact ih.step rfl

theorem decodeString_sample : decodeString "02" = some [2] := by decide

/-- Two webhooks of one key; one is refreshed after the cut-off, the other is
unsubscribed when it is gone already. -/
def sampleRefreshed : State :=
  after [(.register "02" "first" second, true), (.register "02" "second" (5 * second), true),
    (.removeExpired (3 * second), true), (.unsubscribe "02" "first", false)]

theorem sampleRefreshed_reachable : store.ReachableWhen Deletes sampleRefreshed := by
  have empty : store.ReachableWhen Deletes (after []) := .start rfl
  have first := empty.step
    (show Deletes _ (.register "02" "first" second, true) from trivial) rfl
  have both := first.step
    (show Deletes _ (.register "02" "second" (5 * second), true) from trivial) rfl
  have removed := both.step (show Deletes _ (.removeExpired (3 * second), true) from trivial) rfl
  refine removed.step (show Deletes _ (.unsubscribe "02" "first", false) from .inr ?_) rfl
  intro pk decodes
  obtain rfl : [2] = pk := Option.some.inj (decodeString_sample.symm.trans decodes)
  decide

/-- The webhook that was refreshed is read, the expired one is not. -/
theorem registrations_subscribed_sample :
    GetRegistrations sampleRefreshed.subscriptions "02" false (.ok ["second"]) ∧
      Subscribed sampleRefreshed.log [2] "second" ∧
      ¬ Subscribed sampleRefreshed.log [2] "first" := by
  have read : GetRegistrations sampleRefreshed.subscriptions "02" false (.ok ["second"]) :=
    .read ["second"] decodeString_sample (by decide)
  obtain ⟨pk, decodes, _, exactly⟩ :=
    (registrations_subscribed sampleRefreshed_reachable).2 "02" _ read
  obtain rfl : [2] = pk := Option.some.inj (decodeString_sample.symm.trans decodes)
  refine ⟨read, (exactly "second").mp (by decide), ?_⟩
  rw [← exactly "first"]
  decide

/-- The webhook that a reported `Unsubscribe` has left behind. -/
def sampleKept : State :=
  after [(.register "02" "first" second, true), (.unsubscribe "02" "first", false)]

/-- The webhook that is not returned when the rows break off. -/
def sampleUnread : State := after [(.register "02" "first" second, true)]

/-- An `Unsubscribe` whose DELETE failed reports success, and the url is still
returned; a read whose rows broke off returns none of the urls. -/
theorem failed_delete_reported :
    store.Reachable sampleKept ∧ ¬ Subscribed sampleKept.log [2] "first" ∧
      GetRegistrations sampleKept.subscriptions "02" false (.ok ["first"]) ∧
      store.Reachable sampleUnread ∧ Subscribed sampleUnread.log [2] "first" ∧
      GetRegistrations sampleUnread.subscriptions "02" true (.ok []) := by
  refine ⟨after_reachable _, ?_, .read ["first"] decodeString_sample (by decide),
    after_reachable _, ?_, .brokeOff ["first"] decodeString_sample (by decide) 0 (by decide)⟩
  · rintro ⟨time, registered⟩
    have log : sampleKept.log = [⟨.register "02" "first" second, true⟩] ++
      [⟨.unsubscribe "02" "first", true⟩] := rfl
    rw [log, registeredAt_snoc] at registered
    rcases registered with registers | ⟨_, stays⟩
    · exact registers
    · exact stays ⟨decodeString_sample, rfl⟩
  · exact ⟨unixMicro second, [], _, [], rfl, ⟨decodeString_sample, rfl, rfl⟩, by simp⟩

end sample

end Lspd.Postgres.Notifications
