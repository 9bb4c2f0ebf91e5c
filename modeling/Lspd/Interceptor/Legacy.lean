import Lspd.Interceptor.Lookups
import Lspd.Process.Mirror

/-! Registrations from before `opening_fee_params` existed, whose column is NULL:
what `PaymentInfo` makes of them and what `Intercept` would do with them. -/

namespace Lspd.Interceptor

open Lspd.Common Lspd.Lightning Lspd.Postgres Lspd.Process
open Lspd.Process.Program (ending mirrors_bind mirrors_same of_runs_ask runs_ask)

/-- The row with these parameters in its column. -/
def carrying (row : PaymentRow) (params : OpeningFeeParams) : PaymentRow :=
  { row with openingFeeParams := .object ⟨"", params⟩ }

/-- The same calls, but perhaps for one more reading of the clock. -/
def ReadsClock (now : Time) (without more : Trail) : Prop :=
  more = without ∨
    ∃ before after, without = before ++ after ∧ more = before ++ ⟨.now, now⟩ :: after

/-- A call of `Intercept` that got this reply from `PaymentInfo`, made these calls
after it and ended with a result or a panic. -/
def Behaves (i : Interceptor) (req : InterceptRequest) (reply : Outcome PaymentInfo)
    (trail : Trail) (ended : Option InterceptResult) : Prop :=
  (i.intercept req).Runs (⟨.paymentInfo req.paymentHash, reply⟩ :: trail) (ending ended)

/-- One reply has the behaviours of the others, which are given by the time that is
read for them. -/
structure BehavesAlike (i : Interceptor) (req : InterceptRequest) (reply : Outcome PaymentInfo)
    (others : Time → Outcome PaymentInfo) : Prop where
  there : ∀ trail ended, Behaves i req reply trail ended →
    ∃ now other, ReadsClock now other trail ∧ Behaves i req (others now) other ended
  back : ∀ now trail ended, Behaves i req (others now) trail ended →
    ∃ other, ReadsClock now trail other ∧ Behaves i req reply other ended

section fallback

variable {i : Interceptor} {req : InterceptRequest} {info : PaymentInfo} {κ : Type}

theorem ReadsClock.append {now : Time} {without more : Trail} (before : Trail)
    (reads : ReadsClock now without more) :
    ReadsClock now (before ++ without) (before ++ more) := by
  rcases reads with rfl | ⟨first, second, rfl, rfl⟩
  · exact .inl rfl
  · exact .inr ⟨before ++ first, second, by simp, by simp⟩

/-- A run may read the clock where its match does not. -/
def reading : Tolerance Time Op Reply where
  relates now trail other := ReadsClock now other trail
  equal := ⟨0, fun _ => .inl rfl⟩
  extend _ before _ _ reads := reads.append before

/-- The match of a run may read this time where the run does not. -/
def beingRead (now : Time) : Tolerance Unit Op Reply where
  relates _ trail other := ReadsClock now trail other
  equal := ⟨(), fun _ => .inl rfl⟩
  extend _ before _ _ reads := reads.append before

theorem behaves_value_iff {trail : Trail} {ended : Option InterceptResult} :
    Behaves i req (.value info) trail ended ↔
      (ask (.getPeerId req.scid) >>= fun reply =>
        i.interceptPeer req info reply.1).Runs trail (ending ended) := by
  rw [Behaves, intercept_eq]
  constructor
  · intro runs
    rcases of_runs_ask runs with ⟨empty, _⟩ | ⟨reply, rest, same, continues⟩
    · cases empty
    · cases same
      exact continues
  · intro runs
    exact runs_ask _ runs

/-- Payments that differ in their parameters only are treated alike up to the
point where the parameters are needed. -/
theorem intercept_mirrors {tolerance : Tolerance κ Op Reply} {one : Option OpeningFeeParams}
    {others : κ → Option OpeningFeeParams}
    (registered : (i.interceptRegistered req { info with params := one }).Mirrors tolerance
      fun k => i.interceptRegistered req { info with params := others k }) :
    (ask (.getPeerId req.scid) >>= fun reply =>
        i.interceptPeer req { info with params := one } reply.1).Mirrors tolerance
      fun k => ask (.getPeerId req.scid) >>= fun reply =>
        i.interceptPeer req { info with params := others k } reply.1 := by
  have hops (params : Option OpeningFeeParams) (peer : Option Bytes) :
      nextHop { info with params } peer = nextHop info peer := rfl
  have probes (params : Option OpeningFeeParams) :
      isProbe { info with params } req = isProbe info req := rfl
  have notifies (params : Option OpeningFeeParams) (hop : Bytes) (isConnected : Bool) :
      i.notifyPeer req { info with params } hop isConnected =
        i.notifyPeer req info hop isConnected := rfl
  apply mirrors_bind
  intro reply
  simp only [interceptPeer, hops]
  cases nextHop info reply.1 with
  | none => exact mirrors_same _
  | some hop =>
    simp only [interceptNextHop, probes, notifies]
    apply mirrors_bind
    intro connected
    cases connected with
    | error message => exact mirrors_same _
    | ok isConnected =>
      dsimp only
      split
      · exact mirrors_same _
      split
      · exact mirrors_same _
      apply mirrors_bind
      intro _
      split
      · exact registered
      · exact mirrors_same _

variable (i req info)

/-- Without parameters the clock is read for the default ones. -/
theorem interceptRegistered_reads :
    (i.interceptRegistered req { info with params := none }).Mirrors reading
      fun now => i.interceptRegistered req { info with params := some (i.defaultParams now) } := by
  simp only [interceptRegistered]
  cases info.channelPoint with
  | some channelPoint => exact mirrors_same _
  | none =>
    intro trail ended runs
    rcases of_runs_ask runs with ⟨_, same⟩ | ⟨now, rest, rfl, continues⟩
    · cases ended <;> cases same
    · exact ⟨now, rest, .inr ⟨[], rest, rfl, rfl⟩, continues⟩

theorem interceptRegistered_beingRead (now : Time) :
    (i.interceptRegistered req { info with params := some (i.defaultParams now) }).Mirrors
      (beingRead now) fun _ => i.interceptRegistered req { info with params := none } := by
  simp only [interceptRegistered]
  cases info.channelPoint with
  | some channelPoint => exact mirrors_same _
  | none =>
    intro trail ended runs
    refine ⟨(), ⟨.now, now⟩ :: trail, .inr ⟨[], trail, rfl, rfl⟩, ?_⟩
    apply Program.Runs.call
    exact runs

/-- Without parameters `Intercept` does what it does with the default ones. -/
theorem fallback_alike : BehavesAlike i req (.value { info with params := none })
    fun now => .value { info with params := some (i.defaultParams now) } := by
  constructor
  · intro trail ended behaves
    simp only [behaves_value_iff] at behaves ⊢
    exact intercept_mirrors (interceptRegistered_reads i req info) trail ended behaves
  · intro now trail ended behaves
    simp only [behaves_value_iff] at behaves ⊢
    obtain ⟨_, other, reads, matched⟩ :=
      intercept_mirrors (interceptRegistered_beingRead i req info now) trail ended behaves
    exact ⟨other, reads, matched⟩

variable {i req info}

theorem panic_behaves : Behaves i req .panic [] none := by
  rw [Behaves, intercept_eq]
  exact .call _ .here

/-- A call that panics on the reply of `PaymentInfo` is unlike one that goes on. -/
theorem panic_not_alike {others : Time → PaymentInfo} :
    ¬ BehavesAlike i req .panic fun now => .value (others now) := by
  intro alike
  obtain ⟨now, other, reads, behaves⟩ := alike.there [] none panic_behaves
  rw [behaves_value_iff] at behaves
  rcases of_runs_ask behaves with ⟨_, same⟩ | ⟨reply, rest, rfl, _⟩
  · cases same
  · rcases reads with same | ⟨before, after, _, same⟩
    · cases same
    · simp at same

end fallback

/-- The store reads a row without a panic, and a NULL column as the default
parameters, exactly when the column holds neither NULL nor the text `null`. The
fallback of `Intercept` is sound, but a NULL never gets to it. -/
theorem legacy_row_iff (i : Interceptor) (req : InterceptRequest) (row : PaymentRow) :
    (row.info ≠ .panic ∧ (row.openingFeeParams = .sqlNull →
      BehavesAlike i req row.info fun now => (carrying row (i.defaultParams now)).info)) ↔
        row.openingFeeParams ≠ .sqlNull ∧ row.openingFeeParams ≠ .jsonNull := by
  constructor
  · rintro ⟨returns, _⟩
    constructor
    · intro null
      exact returns (by rw [PaymentRow.info, null])
    · intro null
      exact returns (by rw [PaymentRow.info, null])
  · rintro ⟨given, present⟩
    refine ⟨?_, fun null => absurd null given⟩
    intro panics
    unfold PaymentRow.info at panics
    split at panics
    · cases panics
    · exact given ‹_›
    · exact present ‹_›
    · cases panics

/-- The sample payment as it was registered before the column existed. -/
def legacyRow : PaymentRow := { sampleRow with openingFeeParams := .sqlNull }

/-- The htlc for it panics where the fallback would have opened the channel. -/
theorem legacy_row_panics :
    legacyRow.info = .panic ∧
      Behaves sampleInterceptor (samplePart 50000000 51000000) legacyRow.info [] none ∧
      ¬ BehavesAlike sampleInterceptor (samplePart 50000000 51000000) legacyRow.info
        fun now => (carrying legacyRow (sampleInterceptor.defaultParams now)).info :=
  ⟨rfl, panic_behaves, panic_not_alike⟩

end Lspd.Interceptor
