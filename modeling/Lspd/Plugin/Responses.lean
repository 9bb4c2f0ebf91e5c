import Lspd.Plugin.Delivery

/-! How often cln gets a response. `listenHtlcResponses` looks at the in-flight
htlcs, but only `ReceiveHtlcResolution` removes one from them, when its result
has already been through the queue. -/

namespace Lspd.Plugin

open Lspd.Common Lspd.Store

variable {s later : State} {action : Action}

/-- The htlc is in flight and no result for it is on the way to cln. -/
def State.Unresolved (s : State) (id : String) : Prop :=
  id ∈ s.inflightIds ∧ id ∉ s.resultIds ∧ id ∉ s.deleting

instance (s : State) (id : String) : Decidable (s.Unresolved id) :=
  inferInstanceAs (Decidable (_ ∧ _ ∧ _))

/-- `listenHtlcResponses` puts a result on the queue for an unresolved htlc only. -/
def PushUnresolved (s : State) (action : Action) : Prop :=
  action = .push → ∀ id outcome, s.responses = .resolved id outcome → s.Unresolved id

/-- What was returned or is about to be was handled once, and is no longer in
flight or about to be deleted. -/
structure Single (s : State) : Prop where
  distinct : (s.returned ++ s.resultIds).Nodup
  handled : ∀ id ∈ s.returned ++ s.resultIds, id ∈ s.handled
  leaving : ∀ id ∈ s.returned, id ∈ s.inflightIds → id ∈ s.deleting

theorem Single.start (subscriberTimeout now : Time) : Single (.start subscriberTimeout now) where
  distinct := List.nodup_nil
  handled := by simp [State.start, State.resultIds]
  leaving := by simp [State.start]

/-- One more result keeps them distinct if its htlc has none yet. -/
theorem Single.add (single : Single s) {id : String} (new : id ∉ s.returned ++ s.resultIds) :
    (s.returned ++ (s.resultIds ++ [id])).Nodup := by
  rw [← List.append_assoc, List.nodup_append]
  refine ⟨single.distinct, List.pairwise_singleton _ _, ?_⟩
  intro old member added one same
  exact new ((same.trans (List.mem_singleton.mp one)) ▸ member)

theorem Single.unresolved_new (single : Single s) {id : String} (unresolved : s.Unresolved id) :
    id ∉ s.returned ++ s.resultIds := by
  obtain ⟨flying, noResult, notDeleting⟩ := unresolved
  intro member
  rcases List.mem_append.mp member with back | result
  · exact notDeleting (single.leaving id back flying)
  · exact noResult result

theorem Single.step (single : Single s) (ordered : Ordered s)
    (allowed : PushUnresolved s action) (step : Step s action later) : Single later := by
  obtain ⟨distinct, handled, leaving⟩ := id single
  cases step with
  | tick _ | call _ _ _ | enqueue _ _ | take _ _ | sampleNone _ _ | sampleStream _ _ | wake _ _
  | expire _ _ | refuse _ _ | disconnect _ | remove _ _ _ | pollNone _ _ | pollStream _ _
  | wakeReceive _ _ | expireOldest _ _ | answer _ _ _ | receiveError _ =>
    exact ⟨distinct, handled, leaving⟩
  | @release msg here room =>
    have new : msg.id ∉ s.returned ++ s.resultIds := fun member =>
      ordered.hand_new (by rw [here, Requests.hand]) (handled msg.id member)
    refine ⟨?_, ?_, leaving⟩
    · simpa [State.resultIds] using single.add new
    · intro id member
      simp only [State.resultIds, List.map_append, ← List.append_assoc] at member
      rcases List.mem_append.mp member with old | one
      · exact List.mem_append_left _ (handled id old)
      · exact List.mem_append_right _ one
  | @deliver msg stream here alive =>
    have held : s.requests.hand = [msg] := by rw [here, Requests.hand]
    refine ⟨distinct, fun id member => List.mem_append_left _ (handled id member), ?_⟩
    intro id back flying
    rw [State.inflightIds, ordered.set_ids held] at flying
    rcases List.mem_append.mp flying with old | one
    · exact leaving id back old
    · -- the message was in hand, so it cannot have been returned
      have same : id = msg.id := List.mem_singleton.mp one
      exact absurd (handled id (List.mem_append_left _ back)) (same ▸ ordered.hand_new held)
  | @sendError msg stream here =>
    refine ⟨distinct, handled, ?_⟩
    rw [State.inflightIds, ordered.delete_set_ids (by rw [here, Requests.hand])]
    exact leaving
  | subscribe _ _ _ _ =>
    refine ⟨distinct, handled, ?_⟩
    simp only [State.inflightIds, State.replayed_ids]
    exact leaving
  | subscribeError _ _ _ _ =>
    refine ⟨distinct, handled, ?_⟩
    simp only [State.inflightIds, State.replayed_ids]
    exact leaving
  | @push outcome id here room =>
    have unresolved := allowed rfl id outcome here
    refine ⟨?_, ?_, leaving⟩
    · simpa [State.resultIds] using single.add (single.unresolved_new unresolved)
    · intro other member
      simp only [State.resultIds, List.map_append, ← List.append_assoc] at member
      rcases List.mem_append.mp member with old | one
      · exact handled other old
      · rw [List.mem_singleton.mp one]
        exact ordered.inflight.subset unresolved.1
  | dequeue queue =>
    simp only [State.resultIds, queue, List.map_cons] at distinct handled
    refine ⟨?_, ?_, ?_⟩
    · simpa [State.resultIds] using distinct
    · simpa [State.resultIds] using handled
    · intro id back flying
      rcases List.mem_append.mp back with old | one
      · exact List.mem_append_left _ (leaving id old flying)
      · exact List.mem_append_right _ one
  | delete target pending =>
    refine ⟨distinct, handled, ?_⟩
    intro id back flying
    obtain ⟨msg, stored, rfl⟩ := List.mem_map.mp flying
    obtain ⟨member, other⟩ := Table.mem_delete.mp stored
    exact (List.mem_erase_of_ne other).mpr (leaving _ back (List.mem_map_of_mem member))

/-- The states of the runs in which every result is queued for an unresolved htlc. -/
abbrev ReachableUnresolved (s : State) : Prop := server.ReachableWhen PushUnresolved s

theorem single_of_reachable (reachable : ReachableUnresolved s) : Single s := by
  refine reachable.induct Single ?_ ?_
  · rintro _ ⟨subscriberTimeout, now, rfl⟩
    exact .start subscriberTimeout now
  · intro s action later before single allowed step
    exact single.step (ordered_of_reachable before) allowed step

/-- In a run in which results are queued for unresolved htlcs only, cln gets
at most one response per htlc. -/
theorem returned_once (reachable : ReachableUnresolved s) : s.returned.Nodup :=
  (List.nodup_append.mp (single_of_reachable reachable).distinct).1

private theorem step_unresolved (reachable : ReachableUnresolved s) (step : Step s action later)
    (other : action ≠ .push) : ReachableUnresolved later :=
  reachable.step (fun same => absurd same other) step

/-- A subscriber answers and cln gets the result. -/
theorem returned_once_answered :
    ∃ s, ReachableUnresolved s ∧ s.returned = ["1"] ∧ s.returned.Nodup := by
  have start : ReachableUnresolved (.start 100 0) := .start ⟨100, 0, rfl⟩
  have called := step_unresolved start (.call "1" sampleAccepted (by decide)) nofun
  have queued := step_unresolved called (.enqueue (.head _) (by decide)) nofun
  have subscribed := step_unresolved queued (.subscribe 0 rfl rfl (.inl rfl)) nofun
  have taken := step_unresolved subscribed (.take rfl rfl) nofun
  have sampled := step_unresolved taken (.sampleStream rfl rfl) nofun
  have sent := step_unresolved sampled (.deliver rfl rfl) nofun
  have receiving := step_unresolved sent (.pollStream rfl rfl) nofun
  have answered := step_unresolved receiving (.answer "1" (.resolve "00") rfl) nofun
  have pushed := answered.step
    (fun _ id outcome here => (Responses.resolved.inj here).1 ▸ by decide) (.push rfl (by decide))
  have returned := step_unresolved pushed (.dequeue rfl) nofun
  exact ⟨_, returned, rfl, returned_once returned⟩

/-- The oldest htlc times out again before `ReceiveHtlcResolution` has deleted it:
cln gets two responses to one request. -/
theorem returned_twice :
    ∃ s, Reachable s ∧ s.called = ["1"] ∧ s.answered = [] ∧ s.deleting = [] ∧
      s.returned = ["1", "1"] ∧ ¬ s.returned.Nodup := by
  have called := (reachable_start 100 0).step (.call "1" sampleAccepted (by decide))
  have queued := called.step (.enqueue (.head _) (by decide))
  have subscribed := queued.step (.subscribe 0 rfl rfl (.inl rfl))
  have sampled := (subscribed.step (.take rfl rfl)).step (.sampleStream rfl rfl)
  have sent := sampled.step (.deliver rfl rfl)
  have removed := (sent.step (.disconnect 0)).step (.remove 0 rfl rfl)
  have waiting := (removed.step (.pollNone rfl rfl)).step (.tick 100)
  have expired := waiting.step (.expireOldest rfl (by decide))
  have pushed := expired.step (.push rfl (by decide))
  have again := (pushed.step (.pollNone rfl rfl)).step (.expireOldest rfl (by decide))
  have both := again.step (.push rfl (by decide))
  have first := (both.step (.dequeue rfl)).step (.delete "1" (by decide))
  have second := (first.step (.dequeue rfl)).step (.delete "1" (by decide))
  exact ⟨_, second, rfl, rfl, by decide, rfl, by decide⟩

end Lspd.Plugin
