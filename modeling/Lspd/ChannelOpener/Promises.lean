import Lspd.ChannelOpener.ChannelInformation
import Lspd.Codec.Json

/-! What a promise is about. The values are hashed as one json text, from which each of
them can be read back. -/

namespace Lspd.Common

open Lspd.Codec Lspd.Lightning

/-- The values of a quote that a promise is made for. -/
def OpeningFeeParams.terms (params : OpeningFeeParams) :
    UInt64 × UInt32 × String × UInt32 × UInt32 :=
  (params.minFeeMsat, params.proportional, params.validUntil, params.minLifetime,
    params.maxClientToSelfDelay)

section blob

def blobLexemes (params : OpeningFeeParams) : List (Lexeme Char) :=
  [.mark .beginArray, .word (formatUint params.minFeeMsat).toList, .mark .comma,
    .word (formatUint params.proportional.toUInt64).toList, .mark .comma,
    .string (params.validUntil.toList.flatMap escapeChar), .mark .comma,
    .word (formatUint params.minLifetime.toUInt64).toList, .mark .comma,
    .word (formatUint params.maxClientToSelfDelay.toUInt64).toList, .mark .endArray]

theorem paramsBlob_toList (params : OpeningFeeParams) :
    (paramsBlob params).toList = Alphabet.char.render (blobLexemes params) := by
  simp [paramsBlob, marshalString, blobLexemes, Alphabet.render, Alphabet.renderLexeme, Mark.char]

theorem sound_formatUint (value : UInt64) :
    Alphabet.char.Sound (.word (formatUint value).toList) := by
  constructor
  · rw [formatUint, Nat.toList_repr]
    exact Nat.toDigits_ne_nil
  · intro char member
    exact kind_of_isDigit (isDigit_of_mem_formatUint member)

theorem lex_paramsBlob (params : OpeningFeeParams) :
    Alphabet.char.lex (paramsBlob params).toList = some (blobLexemes params) := by
  rw [paramsBlob_toList]
  refine Alphabet.lex_render ?_ (by simp [Separated, blobLexemes])
  have closed : Alphabet.char.Closed (params.validUntil.toList.flatMap escapeChar) := by
    refine @Spells.closed _ _ _ (params.validUntil.toList.map .char) ?_
    rw [Alphabet.char_view, List.map_id]
    exact spells_escape params.validUntil.toList
  simp only [blobLexemes, List.forall_mem_cons]
  exact ⟨trivial, sound_formatUint _, trivial, sound_formatUint _, trivial, closed, trivial,
    sound_formatUint _, trivial, sound_formatUint _, trivial, nofun⟩

theorem terms_of_paramsBlob {one two : OpeningFeeParams} (same : paramsBlob one = paramsBlob two) :
    one.terms = two.terms := by
  have lexemes := lex_paramsBlob one
  rw [same, lex_paramsBlob two] at lexemes
  simp only [blobLexemes, Option.some.injEq, List.cons.injEq, Lexeme.word.injEq,
    Lexeme.string.injEq, true_and, and_true] at lexemes
  obtain ⟨fee, rate, text, lifetime, delay⟩ := lexemes
  have texts : one.validUntil = two.validUntil := by
    have read := unquote_escape one.validUntil.toList
    rw [← text, unquote_escape] at read
    exact String.toList_injective (Option.some.inj read).symm
  have number {first second : UInt64}
      (digits : (formatUint second).toList = (formatUint first).toList) : first = second :=
    (formatUint_inj (String.toList_injective digits)).symm
  have small {first second : UInt32} (digits : (formatUint second.toUInt64).toList =
      (formatUint first.toUInt64).toList) : first = second :=
    UInt32.toUInt64_inj.mp (number digits)
  simp only [OpeningFeeParams.terms, number fee, small rate, texts, small lifetime, small delay]

end blob

namespace OpeningService

variable {Key Point : Type} {s : OpeningService Key Point} {privateKey : Key} {publicKey : Point}

/-- The signature of a hash is recovered as the key of its signer for another hash only if
the two are the same. -/
def Binds (s : OpeningService Key Point) (privateKey : Key) (publicKey : Point)
    (hash other : Bytes) : Prop :=
  s.recoverCompact (s.signCompact privateKey hash) other = .ok publicKey → other = hash

theorem hash_of_verifyPromise [DecidableEq Point] {one two : OpeningFeeParams}
    (binds : s.Binds privateKey publicKey (s.paramsHash one) (s.paramsHash two))
    (carried : two.promise = s.createPromise privateKey one)
    (verified : s.verifyPromise publicKey two = true) : s.paramsHash two = s.paramsHash one := by
  have decoded : decodeString two.promise =
      some (s.signCompact privateKey (s.paramsHash one)) := by
    rw [carried]
    exact decodeString_encodeToString _
  simp only [verifyPromise, decoded] at verified
  split at verified
  · cases verified
  · rename_i pub recovered
    obtain rfl := of_decide_eq_true verified
    exact binds recovered

end OpeningService

/-- Quotes with the same text have the same terms. A promise for one quote verifies with
no other terms, unless the texts of the two quotes have the same hash. -/
theorem promise_binds_terms {Key Point : Type} [DecidableEq Point] (s : OpeningService Key Point)
    (one two : OpeningFeeParams) :
    (paramsBlob one = paramsBlob two → one.terms = two.terms) ∧
    ∀ privateKey publicKey, s.Binds privateKey publicKey (s.paramsHash one) (s.paramsHash two) →
      (s.sha256 (paramsBlob two) = s.sha256 (paramsBlob one) → paramsBlob two = paramsBlob one) →
      two.promise = s.createPromise privateKey one →
      s.verifyPromise publicKey two = true → two.terms = one.terms := by
  refine ⟨terms_of_paramsBlob, ?_⟩
  intro privateKey publicKey binds collisionFree carried verified
  exact terms_of_paramsBlob
    (collisionFree (OpeningService.hash_of_verifyPromise binds carried verified))

section sample

open Lspd.ChannelOpener

/-- The quote for a day. -/
def dailyQuote : OpeningFeeParams :=
  { minFeeMsat := 2000000, proportional := 4000, validUntil := "2023-11-15T22:13:20.123Z"
    minLifetime := 1008, maxClientToSelfDelay := 2016, promise := "" }

/-- The quote for some hours, with a promise of one's own choice. -/
def hourlyQuote (promise : String) : OpeningFeeParams :=
  { minFeeMsat := 1000000, proportional := 5000, validUntil := "2023-11-15T00:13:20.123Z"
    minLifetime := 1008, maxClientToSelfDelay := 2016, promise }

/-- The signature for a day is recovered as another key for the cheaper quote. -/
theorem feeService_binds (promise : String) :
    feeService.Binds 1 generator (feeService.paramsHash dailyQuote)
      (feeService.paramsHash (hourlyQuote promise)) := by
  have daily : feeService.paramsHash dailyQuote = dailyHash := by decide
  have hourly : feeService.paramsHash (hourlyQuote promise) = hourlyHash := by
    change feeService.paramsHash (hourlyQuote "") = hourlyHash
    decide
  rw [daily, hourly]
  have foreign : feeService.recoverCompact (feeService.signCompact 1 dailyHash) hourlyHash ≠
      .ok generator := by decide +kernel
  exact fun recovered => absurd recovered foreign

/-- The promise of the quote for a day does not hold for the cheaper one. -/
theorem promise_binds_terms_sample :
    feeService.verifyPromise generator (hourlyQuote (feeService.createPromise 1 dailyQuote)) =
      false := by
  have collisionFree (promise : String) :
      feeService.sha256 (paramsBlob (hourlyQuote promise)) ≠
        feeService.sha256 (paramsBlob dailyQuote) := by
    change feeService.sha256 (paramsBlob (hourlyQuote "")) ≠ _
    decide
  rw [← Bool.not_eq_true]
  intro verified
  have same := (promise_binds_terms feeService dailyQuote (hourlyQuote _)).2 1 generator
    (feeService_binds _) (fun same => absurd same (collisionFree _)) rfl verified
  have fees : (1000000 : UInt64) = 2000000 := congrArg Prod.fst same
  exact absurd fees (by decide)

end sample

end Lspd.Common
