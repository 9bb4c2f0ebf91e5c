import Lspd.Notifications.Server
import Lspd.Notifications.Service

/-! The notifications as a whole: the two rpcs, the table of webhooks, the calls of
`Notify` that read it, and the cleanup that removes webhooks after four weeks. -/

namespace Lspd.Notifications

open Lspd.Common Lspd.Lightning Lspd.Postgres.Notifications Lspd.Process Lspd.Store

section effects

variable {Secret Point : Type} {server : NotificationsServer Secret Point} {blob : Bytes}
  {subscriptions : Subscriptions} {now : Time} {runs : Bool}

namespace NotificationsServer

theorem Authenticates.unique {one two : Bytes} {first second : String}
    (held : server.Authenticates blob one first) (also : server.Authenticates blob two second) :
    one = two ∧ first = second := by
  obtain ⟨request, pubkey, opened, rfl, signed, rfl⟩ := held
  obtain ⟨other, signer, again, rfl, valid, rfl⟩ := also
  obtain rfl : request = other := Except.ok.inj (opened.symm.trans again)
  obtain rfl := signed.unique valid
  exact ⟨rfl, rfl⟩

/-- The rpc registers the url of a signed request for the key that signed it, and
changes nothing otherwise. -/
theorem subscribeNotifications_effect :
    (∃ compressed url, server.Authenticates blob compressed url ∧
      (server.subscribeNotifications subscriptions now runs blob).2 =
        (register subscriptions (encodeToString compressed) url now runs).2) ∨
    (∀ compressed url, ¬ server.Authenticates blob compressed url) ∧
      (server.subscribeNotifications subscriptions now runs blob).2 = subscriptions := by
  cases opened : server.request blob with
  | error err =>
    refine .inr ⟨not_authenticates_of_error opened, ?_⟩
    simp only [subscribeNotifications, opened]
  | ok request =>
    rcases server.signatures.verifyMessage_cases request.url.toUTF8.toList request.signature with
      ⟨pubkey, signed, verified⟩ | ⟨unsigned, _⟩
    · refine .inl ⟨_, _, ⟨request, pubkey, opened, rfl, signed, rfl⟩, ?_⟩
      simp only [subscribeNotifications, opened, verify, verified, serializeCompressed, reply]
    · refine .inr ⟨not_authenticates_of_unsigned opened unsigned, ?_⟩
      rw [subscribeNotifications_unsigned opened unsigned]

theorem unsubscribeNotifications_effect :
    (∃ compressed url, server.Authenticates blob compressed url ∧
      (server.unsubscribeNotifications subscriptions runs blob).2 =
        (unsubscribe subscriptions (encodeToString compressed) url runs).2) ∨
    (∀ compressed url, ¬ server.Authenticates blob compressed url) ∧
      (server.unsubscribeNotifications subscriptions runs blob).2 = subscriptions := by
  cases opened : server.request blob with
  | error err =>
    refine .inr ⟨not_authenticates_of_error opened, ?_⟩
    simp only [unsubscribeNotifications, opened]
  | ok request =>
    rcases server.signatures.verifyMessage_cases request.url.toUTF8.toList request.signature with
      ⟨pubkey, signed, verified⟩ | ⟨unsigned, err, failed⟩
    · refine .inl ⟨_, _, ⟨request, pubkey, opened, rfl, signed, rfl⟩, ?_⟩
      simp only [unsubscribeNotifications, opened, verify, verified, serializeCompressed, reply]
    · refine .inr ⟨not_authenticates_of_unsigned opened unsigned, ?_⟩
      simp only [unsubscribeNotifications, opened, verify, failed]

end NotificationsServer

end effects

/-- `ExpiryDuration`: the time until a webhook that is not refreshed expires. -/
def expiryDuration : Time := 28 * 24 * 3600 * second

/-- A request to one of the rpcs, with the secret of the node that the caller named. -/
structure Rpc (Secret : Type) where
  node : Except String Secret
  blob : Bytes

/-- A statement on the table that has run. `stamp` is the time `Register` read for it. -/
inductive Statement (Secret : Type) where
  | subscribed (rpc : Rpc Secret) (stamp : Time)
  | unsubscribed (rpc : Rpc Secret)
  | removedExpired (before : Time)

/-- A post to a webhook by a call of `Notify`. -/
structure Post where
  call : Nat
  url : String
  payload : PaymentReceivedPayload
  /-- How many statements had run when the call read the table. -/
  seen : Nat

/-- `registering` are the requests to subscribe that have read the time, and `cleanup` is
the time up to which `RemoveExpired` is about to remove. -/
structure System (Secret : Type) where
  service : State
  subscriptions : Subscriptions
  registering : List (Rpc Secret × Time)
  cleanup : Option Time
  log : List (Statement Secret)
  posts : List Post

namespace System

variable {Secret Point : Type}

def clock (s : System Secret) : Time := s.service.clock

/-- The server as an rpc sees it. -/
def serving (server : NotificationsServer Secret Point) (rpc : Rpc Secret) :
    NotificationsServer Secret Point :=
  { server with getNode := rpc.node }

/-- The steps of the service, of the rpcs and of the cleanup. A statement runs or fails. -/
inductive Step (server : NotificationsServer Secret Point) (args : Nat → String × String)
    (s : System Secret) : Unit → System Secret → Prop where
  | notify (step : Notifications.Step args s.service action later)
      (silent : ∀ n posts, action ≠ .post n posts) :
      Step server args s () { s with service := later }
  | post (n : Nat) (here : s.service.calls n = .fetching)
      (read : GetRegistrations s.subscriptions (args n).1 brokeOff (.ok registrations)) :
      Step server args s ()
        { s with
          service := s.service.startPosts n registrations
          posts := s.posts ++
            registrations.map fun url => ⟨n, url, payload (args n).2, s.log.length⟩ }
  | subscribe (rpc : Rpc Secret) :
      Step server args s () { s with registering := s.registering ++ [(rpc, s.clock)] }
  | register (rpc : Rpc Secret) (stamp : Time) (runs : Bool)
      (pending : s.registering = earlier ++ (rpc, stamp) :: rest) :
      Step server args s ()
        { s with
          registering := earlier ++ rest
          subscriptions := ((serving server rpc).subscribeNotifications s.subscriptions stamp runs
            rpc.blob).2
          log := if runs then s.log ++ [.subscribed rpc stamp] else s.log }
  | unsubscribe (rpc : Rpc Secret) (runs : Bool) :
      Step server args s ()
        { s with
          subscriptions := ((serving server rpc).unsubscribeNotifications s.subscriptions runs
            rpc.blob).2
          log := if runs then s.log ++ [.unsubscribed rpc] else s.log }
  | expire (idle : s.cleanup = none) :
      Step server args s () { s with cleanup := some (s.clock - expiryDuration) }
  | removeExpired (before : Time) (runs : Bool) (here : s.cleanup = some before) :
      Step server args s ()
        { s with
          subscriptions := (Postgres.Notifications.removeExpired s.subscriptions before runs).2
          cleanup := none
          log := if runs then s.log ++ [.removedExpired before] else s.log }

def system (server : NotificationsServer Secret Point) (args : Nat → String × String) :
    Machine (System Secret) Unit where
  Initial s := ∃ clock, s = ⟨⟨clock, fun _ => none, none, fun _ => .idle, 0⟩, .empty, [], none, [], []⟩
  Step := Step server args

section sample

/-- Requests that are not encrypted, for one url, all signed by one key. -/
def sampleSigned : NotificationsServer Unit Unit where
  getNode := .ok ()
  eciesDecrypt _ blob := .ok blob
  unmarshal _ := .ok ⟨"hook", ""⟩
  signatures :=
    { zbase32Decode := fun _ => .ok []
      sha256 := id
      recoverCompact := fun _ _ => .ok ((), true)
      serializeCompressed := fun _ => [2] }

theorem sampleSigned_authenticates : sampleSigned.Authenticates [] [2] "hook" :=
  ⟨⟨"hook", ""⟩, (), rfl, rfl, ⟨[], rfl, rfl⟩, rfl⟩

/-- A webhook was subscribed, a cleanup has passed, and a call has posted to it. -/
theorem sample_posted : ∃ s : System Unit, (system sampleSigned fun _ => ("02", "hash")).Reachable s ∧
    s.log = [.subscribed ⟨.ok (), []⟩ 5, .removedExpired (5 - expiryDuration)] ∧ s.clock = 5 ∧
    s.posts = [⟨0, "hook", payload "hash", 2⟩] ∧
    GetRegistrations s.subscriptions "02" false (.ok ["hook"]) := by
  have begun : (system sampleSigned fun _ => ("02", "hash")).Reachable
    ⟨⟨5, fun _ => none, none, fun _ => .idle, 0⟩, .empty, [], none, [], []⟩ := .start ⟨5, rfl⟩
  have asked := begun.step (.subscribe ⟨.ok (), []⟩)
  have stored := asked.step (.register ⟨.ok (), []⟩ 5 true (List.nil_append _).symm)
  have expiring := stored.step (.expire rfl)
  have cleaned := expiring.step (.removeExpired (5 - expiryDuration) true rfl)
  have checked := cleaned.step (.notify (.check 0 rfl rfl) nofun)
  have fetching := checked.step (.notify (.proceed 0 rfl rfl) nofun)
  have read : GetRegistrations
      (Postgres.Notifications.removeExpired ((serving sampleSigned ⟨.ok (), []⟩).subscribeNotifications
        .empty 5 true []).2 (5 - expiryDuration) true).2 "02" false (.ok ["hook"]) :=
    .read ["hook"] decodeString_sample (by decide)
  have posted := fetching.step (.post 0 rfl read)
  exact ⟨_, posted, rfl, rfl, rfl, read⟩

end sample

section Recorded

variable {server : NotificationsServer Secret Point} {args : Nat → String × String}
  {s later : System Secret} {pk : Bytes} {url : String} {time : Int}

/-- A request to subscribe the url, signed by the key, that was stamped with this time. -/
def Registers (server : NotificationsServer Secret Point) (pk : Bytes) (url : String) (time : Int) :
    Statement Secret → Prop
  | .subscribed rpc stamp =>
    (serving server rpc).Authenticates rpc.blob pk url ∧ unixMicro stamp = time
  | _ => False

/-- A statement after which the url has no row that was stamped with this time. -/
def Ends (server : NotificationsServer Secret Point) (pk : Bytes) (url : String) (time : Int) :
    Statement Secret → Prop
  | .subscribed rpc _ | .unsubscribed rpc => (serving server rpc).Authenticates rpc.blob pk url
  | .removedExpired before => time < unixMicro before

/-- A statement registered the url for the key that signed the request, and no statement
since has removed or restamped its row. Only statements that ran count: an unsubscribe
request whose statement failed reports success and takes nothing back, and a row that is
older than four weeks stands until a cleanup removes it. -/
def Consents (server : NotificationsServer Secret Point) (log : List (Statement Secret)) (pk : Bytes)
    (url : String) (time : Int) : Prop :=
  Since (Registers server pk url time) (Ends server pk url time) log

theorem consents_snoc {log : List (Statement Secret)} {new : Statement Secret} :
    Consents server (log ++ [new]) pk url time ↔
      Registers server pk url time new ∨ Consents server log pk url time ∧ ¬ Ends server pk url time new :=
  since_snoc

/-- The rows of the table are what the statements say. -/
def Recorded (server : NotificationsServer Secret Point) (s : System Secret) : Prop :=
  ∀ pk url time, refreshed s.subscriptions (pk, url) = some time ↔ Consents server s.log pk url time

/-- A statement for the one row that a request is signed for, which gets this stamp. -/
theorem Recorded.write (recorded : Recorded server s) {rpc : Rpc Secret}
    {statement : Statement Secret} {after : Subscriptions} (stamp : Option Int)
    (registers : ∀ pk url time, Registers server pk url time statement ↔
      (serving server rpc).Authenticates rpc.blob pk url ∧ stamp = some time)
    (ends : ∀ pk url time, Ends server pk url time statement ↔
      (serving server rpc).Authenticates rpc.blob pk url)
    (effect : (∃ compressed other, (serving server rpc).Authenticates rpc.blob compressed other ∧
        ∀ pk url, refreshed after (pk, url) =
          if pk = compressed ∧ url = other then stamp else refreshed s.subscriptions (pk, url)) ∨
      (∀ compressed other, ¬ (serving server rpc).Authenticates rpc.blob compressed other) ∧
        after = s.subscriptions)
    (pk : Bytes) (url : String) (time : Int) :
    refreshed after (pk, url) = some time ↔ Consents server (s.log ++ [statement]) pk url time := by
  have before := recorded pk url time
  rw [consents_snoc, registers, ends]
  rcases effect with ⟨compressed, other, held, acts⟩ | ⟨none, rfl⟩
  · rw [acts]
    by_cases same : pk = compressed ∧ url = other
    · obtain ⟨rfl, rfl⟩ := same
      simp [held]
    · have foreign : ¬ (serving server rpc).Authenticates rpc.blob pk url := fun also =>
        same (also.unique held)
      simpa [same, foreign] using before
  · simpa [none] using before

theorem Recorded.register (recorded : Recorded server s) (rpc : Rpc Secret) (stamp : Time)
    (runs : Bool) (pk : Bytes) (url : String) (time : Int) :
    refreshed ((serving server rpc).subscribeNotifications s.subscriptions stamp runs rpc.blob).2
        (pk, url) = some time ↔
      Consents server (if runs then s.log ++ [.subscribed rpc stamp] else s.log) pk url time := by
  cases runs with
  | false =>
    refine Iff.trans ?_ (recorded pk url time)
    rcases NotificationsServer.subscribeNotifications_effect with ⟨_, _, _, effect⟩ | ⟨_, effect⟩
    · rw [effect, Postgres.Notifications.register, decodeString_encodeToString]
      rfl
    · rw [effect]
  | true =>
    refine recorded.write (some (unixMicro stamp)) (fun pk url time => ?_) (fun _ _ _ => .rfl) ?_
      pk url time
    · simp [Registers]
    · refine NotificationsServer.subscribeNotifications_effect.imp_left ?_
      rintro ⟨compressed, other, held, effect⟩
      refine ⟨compressed, other, held, fun pk url => ?_⟩
      rw [effect, Postgres.Notifications.register, decodeString_encodeToString]
      simp [refreshed_upsert, Subscription.key]

theorem Recorded.unsubscribe (recorded : Recorded server s) (rpc : Rpc Secret) (runs : Bool)
    (pk : Bytes) (url : String) (time : Int) :
    refreshed ((serving server rpc).unsubscribeNotifications s.subscriptions runs rpc.blob).2
        (pk, url) = some time ↔
      Consents server (if runs then s.log ++ [.unsubscribed rpc] else s.log) pk url time := by
  cases runs with
  | false =>
    refine Iff.trans ?_ (recorded pk url time)
    rcases NotificationsServer.unsubscribeNotifications_effect with ⟨_, _, _, effect⟩ | ⟨_, effect⟩
    · rw [effect, Postgres.Notifications.unsubscribe, decodeString_encodeToString]
      rfl
    · rw [effect]
  | true =>
    refine recorded.write none (fun pk url time => ?_) (fun _ _ _ => .rfl) ?_ pk url time
    · simp [Registers]
    · refine NotificationsServer.unsubscribeNotifications_effect.imp_left ?_
      rintro ⟨compressed, other, held, effect⟩
      refine ⟨compressed, other, held, fun pk url => ?_⟩
      rw [effect, Postgres.Notifications.unsubscribe, decodeString_encodeToString]
      simp [refreshed_delete]

theorem Recorded.removeExpired (recorded : Recorded server s) (before : Time) (runs : Bool)
    (pk : Bytes) (url : String) (time : Int) :
    refreshed (Postgres.Notifications.removeExpired s.subscriptions before runs).2 (pk, url) =
        some time ↔
      Consents server (if runs then s.log ++ [.removedExpired before] else s.log) pk url time := by
  have held := recorded pk url time
  unfold Postgres.Notifications.removeExpired
  cases runs with
  | false => simpa using held
  | true =>
    simp only [if_true, refreshed_filter, Option.filter_eq_some_iff, consents_snoc, Registers,
      Ends, false_or, held]
    simp

theorem recorded_of_reachable (reachable : (system server args).Reachable s) : Recorded server s := by
  refine reachable.induct (Recorded server) ?_ ?_
  · rintro _ ⟨clock, rfl⟩ pk url time
    exact iff_of_false (by simp [refreshed, Table.find?, Table.empty]) not_since_nil
  · intro s action later _ recorded step
    cases step with
    | notify _ _ | post _ _ _ | subscribe _ | expire _ => exact recorded
    | register rpc stamp runs pending => exact recorded.register rpc stamp runs
    | unsubscribe rpc runs => exact recorded.unsubscribe rpc runs
    | removeExpired before runs here => exact recorded.removeExpired before runs

end Recorded

section Posted

variable {server : NotificationsServer Secret Point} {args : Nat → String × String}
  {s later : System Secret} {pk : Bytes} {url : String}

/-- The call has not posted yet. -/
def Early : Phase → Prop
  | .idle | .checking _ | .fetching => True
  | .posting _ _ _ | .returned _ _ => False

theorem early_setCall {service : State} {n m : Nat} {phase : Phase}
    (kept : Early phase → Early (service.calls n)) (early : Early ((service.setCall n phase).calls m)) :
    Early (service.calls m) := by
  by_cases same : m = n
  · subst same
    simp only [State.setCall, Function.update_self] at early
    exact kept early
  · simpa only [State.setCall, Function.update_of_ne same] using early

theorem clock_le {service after : State} {action : Action}
    (step : Notifications.Step args service action after) : service.clock ≤ after.clock := by
  cases step with
  | tick now later => exact later
  | _ => exact Nat.le_refl _

theorem registrations_nodup {pubkey : String} {brokeOff : Bool} {found : List String}
    (read : GetRegistrations s.subscriptions pubkey brokeOff (.ok found)) : found.Nodup := by
  cases read with
  | read found decodes order => exact order.nodup_iff.mpr urls_nodup
  | brokeOff found decodes order arrived fewer =>
    exact (order.nodup_iff.mpr urls_nodup).sublist (List.take_sublist _ _)

theorem mem_registrations {pubkey : String} {brokeOff : Bool} {found : List String}
    (read : GetRegistrations s.subscriptions pubkey brokeOff (.ok found)) (member : url ∈ found) :
    ∃ pk, decodeString pubkey = some pk ∧ url ∈ urls s.subscriptions pk := by
  cases read with
  | read found decodes order => exact ⟨_, decodes, order.mem_iff.mp member⟩
  | brokeOff found decodes order arrived fewer =>
    exact ⟨_, decodes, order.mem_iff.mp (List.mem_of_mem_take member)⟩

/-- The post was made for a webhook that was subscribed when the call read the table. -/
structure Justified (server : NotificationsServer Secret Point) (args : Nat → String × String)
    (log : List (Statement Secret)) (post : Post) : Prop where
  seen : post.seen ≤ log.length
  payload : post.payload = payload (args post.call).2
  consents : ∃ pk time, decodeString (args post.call).1 = some pk ∧
    Consents server (log.take post.seen) pk post.url time

/-- The urls that a call has posted to. -/
def postsOf (s : System Secret) (n : Nat) : List String :=
  (s.posts.filter fun post => post.call = n).map Post.url

structure Posted (server : NotificationsServer Secret Point) (args : Nat → String × String)
    (s : System Secret) : Prop where
  justified : ∀ post ∈ s.posts, Justified server args s.log post
  once : ∀ n, (postsOf s n).Nodup
  unposted : ∀ n, Early (s.service.calls n) → postsOf s n = []

/-- Statements that run later do not matter. -/
theorem Justified.more {log : List (Statement Secret)} {post : Post}
    (justified : Justified server args log post) (new : List (Statement Secret)) :
    Justified server args (log ++ new) post := by
  obtain ⟨seen, payload, consents⟩ := justified
  refine ⟨by rw [List.length_append]; omega, payload, ?_⟩
  rwa [List.take_append_of_le_length seen]

theorem Posted.log (posted : Posted server args s) {log : List (Statement Secret)}
    (grown : ∃ new, log = s.log ++ new) (same : later.posts = s.posts) (logged : later.log = log)
    (service : later.service = s.service) : Posted server args later := by
  obtain ⟨new, rfl⟩ := grown
  refine ⟨?_, ?_, ?_⟩
  · intro post member
    rw [logged]
    exact (posted.justified post (same ▸ member)).more new
  · intro n
    rw [postsOf, same]
    exact posted.once n
  · intro n early
    rw [postsOf, same]
    exact posted.unposted n (service ▸ early)

theorem postsOf_post (s : System Secret) (n m seen : Nat) (registrations : List String)
    (payload : PaymentReceivedPayload) :
    ((s.posts ++ registrations.map fun url => Post.mk n url payload seen).filter
        fun post => post.call = m).map Post.url =
      postsOf s m ++ if n = m then registrations else [] := by
  rw [List.filter_append, List.map_append, List.filter_map]
  by_cases same : n = m
  · simp [postsOf, Function.comp_def, same]
  · simp [postsOf, Function.comp_def, same]

theorem Posted.post (posted : Posted server args s) (recorded : Recorded server s) {n : Nat}
    (here : s.service.calls n = .fetching) {brokeOff : Bool} {registrations : List String}
    (read : GetRegistrations s.subscriptions (args n).1 brokeOff (.ok registrations)) :
    Posted server args { s with
      service := s.service.startPosts n registrations
      posts := s.posts ++
        registrations.map fun url => ⟨n, url, payload (args n).2, s.log.length⟩ } := by
  have silent := posted.unposted n (by rw [here]; trivial)
  refine ⟨?_, ?_, ?_⟩
  · intro post member
    rcases List.mem_append.mp member with old | new
    · exact posted.justified post old
    · obtain ⟨url, found, rfl⟩ := List.mem_map.mp new
      obtain ⟨pk, decodes, listed⟩ := mem_registrations read found
      obtain ⟨time, stamped⟩ := mem_urls.mp listed
      refine ⟨Nat.le_refl _, rfl, pk, time, decodes, ?_⟩
      rw [List.take_length]
      exact (recorded pk url time).mp stamped
  · intro m
    rw [postsOf, postsOf_post]
    by_cases same : n = m
    · subst same
      simpa [silent] using registrations_nodup read
    · simpa [same] using posted.once m
  · intro m early
    rw [postsOf, postsOf_post]
    have other : n ≠ m := by
      rintro rfl
      simp [State.startPosts, State.setCall, Early] at early
    have before := posted.unposted m (early_setCall False.elim early)
    simp [other, before]

end Posted

section Kept

variable {server : NotificationsServer Secret Point} {args : Nat → String × String}
  {s later : System Secret} {pk : Bytes} {url : String}

/-- The cleanup removes only what is older than four weeks. -/
structure Dated (s : System Secret) : Prop where
  cleanup : ∀ before, s.cleanup = some before → before ≤ s.clock - expiryDuration
  removed : ∀ before, .removedExpired before ∈ s.log → before ≤ s.clock - expiryDuration

theorem Dated.step (dated : Dated s) (step : Step server args s () later) : Dated later := by
  obtain ⟨cleanup, removed⟩ := dated
  cases step with
  | notify step silent =>
    have passes := Int.sub_le_sub_right (Int.ofNat_le.mpr (clock_le step)) expiryDuration
    exact ⟨fun before here => (cleanup before here).trans passes,
      fun before member => (removed before member).trans passes⟩
  | post n here read => exact ⟨cleanup, removed⟩
  | subscribe rpc => exact ⟨cleanup, removed⟩
  | register rpc stamp runs pending =>
    refine ⟨cleanup, fun before member => removed before ?_⟩
    cases runs with
    | false => exact member
    | true => simpa using member
  | unsubscribe rpc runs =>
    refine ⟨cleanup, fun before member => removed before ?_⟩
    cases runs with
    | false => exact member
    | true => simpa using member
  | expire idle =>
    refine ⟨fun before here => ?_, removed⟩
    obtain rfl := Option.some.inj here
    exact Int.le_refl _
  | removeExpired cutoff runs here =>
    refine ⟨nofun, fun before member => ?_⟩
    cases runs with
    | false => exact removed before member
    | true =>
      rcases List.mem_append.mp member with old | new
      · exact removed before old
      · cases List.mem_singleton.mp new
        exact cleanup cutoff here

theorem dated_of_reachable (reachable : (system server args).Reachable s) : Dated s := by
  refine reachable.induct Dated ?_ fun _ _ _ _ dated step => dated.step step
  rintro _ ⟨clock, rfl⟩
  exact ⟨nofun, nofun⟩

theorem unixMicro_mono {one two : Time} (le : one ≤ two) : unixMicro one ≤ unixMicro two :=
  Int.ediv_le_ediv (by decide) le

/-- A webhook is found by every complete read for four weeks after the statement that
registered it was stamped, unless its owner registers it again or takes it back: the
cleanup never removes it before. -/
theorem found_until_expiry (reachable : (system server args).Reachable s)
    {before after : List (Statement Secret)} {rpc : Rpc Secret} {stamp : Time}
    (split : s.log = before ++ .subscribed rpc stamp :: after)
    (signed : (serving server rpc).Authenticates rpc.blob pk url)
    (refreshed : ∀ other time, .subscribed other time ∈ after →
      ¬ (serving server other).Authenticates other.blob pk url)
    (kept : ∀ other, .unsubscribed other ∈ after →
      ¬ (serving server other).Authenticates other.blob pk url)
    (fresh : s.clock ≤ stamp + expiryDuration) {pubkey : String} {result : List String}
    (decodes : decodeString pubkey = some pk)
    (read : GetRegistrations s.subscriptions pubkey false (.ok result)) : url ∈ result := by
  have dated := dated_of_reachable reachable
  have consents : Consents server s.log pk url (unixMicro stamp) := by
    refine ⟨before, _, after, split, ⟨signed, rfl⟩, fun statement member => ?_⟩
    cases statement with
    | subscribed other time => exact refreshed other time member
    | unsubscribed other => exact kept other member
    | removedExpired cutoff =>
      have old := dated.removed cutoff (split ▸ List.mem_append_right _ (List.mem_cons_of_mem _ member))
      have late : cutoff ≤ stamp := Int.le_trans old (Int.sub_right_le_of_le_add fresh)
      exact Int.not_lt.mpr (unixMicro_mono late)
  cases read with
  | read found again order =>
    obtain rfl := Option.some.inj (decodes.symm.trans again)
    exact order.mem_iff.mpr (mem_urls.mpr ⟨_, (recorded_of_reachable reachable pk url _).mpr consents⟩)

/-- The sample webhook is found after a cleanup. -/
theorem found_until_expiry_sample :
    ∃ s : System Unit, (system sampleSigned fun _ => ("02", "hash")).Reachable s ∧
      .removedExpired (5 - expiryDuration) ∈ s.log ∧
      ∃ result, GetRegistrations s.subscriptions "02" false (.ok result) ∧ "hook" ∈ result := by
  obtain ⟨s, reachable, log, clock, _, read⟩ := sample_posted
  refine ⟨s, reachable, log ▸ .tail _ (.head _), _, read, ?_⟩
  refine found_until_expiry reachable (log.trans (List.nil_append _).symm)
    sampleSigned_authenticates ?_ ?_ ?_ decodeString_sample read
  · simp
  · simp
  · rw [clock]
    decide

end Kept

end System

end Lspd.Notifications
