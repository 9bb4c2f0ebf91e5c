import Mathlib.Data.List.Basic

/-! Token scanners in the manner of `bufio.Scanner`: a split function looks at the
bytes that are not consumed yet, and more are read until it finds a token. -/

namespace Lspd.Process

/-- How far to advance, and the token that was found. The flag tells that no more
bytes will come. -/
abbrev Split (Byte : Type) := List Byte → Bool → Nat × Option (List Byte)

/-- A scanner between two of its steps: the bytes it holds, those that later reads
return, and the tokens it has yielded. -/
structure Scanner (Byte : Type) where
  buffer : List Byte
  reads : List (List Byte)
  ended : Bool
  tooLong : Bool
  tokens : List (List Byte)

namespace Scanner

variable {Byte : Type} (split : Split Byte) (limit : Nat)

def start (reads : List (List Byte)) : Scanner Byte := ⟨[], reads, false, false, []⟩

/-- One pass of the loop in `Scan`: try to split what there is, else read. A
buffer of `limit` bytes without a token is an error. -/
def next (s : Scanner Byte) : Option (Scanner Byte) :=
  if s.tooLong then none
  else
    let found := if s.buffer.isEmpty && !s.ended then (0, none) else split s.buffer s.ended
    let rest := s.buffer.drop found.1
    match found.2 with
    | some token => some { s with buffer := rest, tokens := s.tokens ++ [token] }
    | none =>
      if s.ended then none
      else if limit ≤ rest.length then some { s with buffer := rest, tooLong := true }
      else match s.reads with
        | [] => some { s with buffer := rest, ended := true }
        | chunk :: reads => some { s with buffer := rest ++ chunk, reads }

/-- A bound on the passes that are left. -/
def rank (s : Scanner Byte) : Nat :=
  s.buffer.length + s.reads.flatten.length + s.reads.length +
    (if s.ended then 0 else 1) + if s.tooLong then 0 else 1

def run : Nat → Scanner Byte → Scanner Byte
  | 0, s => s
  | passes + 1, s => match s.next split limit with
    | none => s
    | some later => run passes later

/-- What the scanner has done when `Scan` returns false. -/
def scan (reads : List (List Byte)) : Scanner Byte := run split limit (start reads).rank (start reads)

/-- Tokens are found as soon as their bytes are there, and more bytes do not
change them. Without a token nothing is consumed. -/
structure Stable : Prop where
  found : ∀ {data ended count token}, split data ended = (count, some token) →
    ∀ more later, split (data ++ more) later = (count, some token)
  bounds : ∀ {data ended count token}, split data ended = (count, some token) →
    0 < count ∧ count ≤ data.length
  early : ∀ {data ended count token}, split data ended = (count, some token) →
    split (data.take count) ended = (count, some token)
  waits : ∀ {data ended}, (split data ended).2 = none → (split data ended).1 = 0
  empty : ∀ ended, (split [] ended).2 = none

/-- The tokens of a whole stream and what is left behind them, where every token
fits the buffer with what ends it. -/
inductive Pieces : List Byte → List (List Byte) → List Byte → Prop where
  | tail {data : List Byte} (missing : (split data true).2 = none) (fits : data.length < limit) :
      Pieces data [] data
  | token {data rest token : List Byte} {others : List (List Byte)} {count : Nat}
      (found : split data true = (count, some token)) (fits : count ≤ limit)
      (more : Pieces (data.drop count) others rest) : Pieces data (token :: others) rest

/-- What is left of the stream holds the tokens that are still to come. -/
structure Ahead (all : List (List Byte)) (rest : List Byte) (s : Scanner Byte) : Prop where
  left : ∃ left, s.tokens ++ left = all ∧
    Pieces split limit (s.buffer ++ s.reads.flatten) left rest
  done : s.ended = true → s.reads = []
  fits : s.tooLong = false

variable {split limit} {s later : Scanner Byte} {all : List (List Byte)} {rest : List Byte}

theorem Stable.missing (stable : Stable split) {data : List Byte} {one : Bool}
    (missing : (split data one).2 = none) (two : Bool) : (split data two).2 = none := by
  cases other : split data two with
  | mk count token =>
    cases token with
    | none => rfl
    | some token =>
      have same := stable.found other [] one
      rw [List.append_nil] at same
      rw [same] at missing
      cases missing

/-- The bytes at hand while a token is being read are fewer than the token takes. -/
theorem Pieces.short (stable : Stable split) {data more : List Byte} {ended : Bool}
    (pieces : Pieces split limit (data ++ more) all rest)
    (missing : (split data ended).2 = none) : data.length < limit := by
  generalize whole : data ++ more = stream at pieces
  cases pieces with
  | tail _ fits =>
    rw [← whole, List.length_append] at fits
    omega
  | @token _ _ token _ count found fits _ =>
    by_contra long
    have within : count ≤ data.length := Nat.le_trans fits (Nat.le_of_not_lt long)
    have early := stable.early found
    rw [← whole, List.take_append_of_le_length within] at early
    have here := stable.found early (data.drop count) ended
    rw [List.take_append_drop] at here
    rw [here] at missing
    cases missing

/-- A token at hand is the next one of the stream. -/
theorem Pieces.head (stable : Stable split) {data more token : List Byte} {ended : Bool}
    {count : Nat} (pieces : Pieces split limit (data ++ more) all rest)
    (found : split data ended = (count, some token)) :
    ∃ others, all = token :: others ∧
      Pieces split limit (data.drop count ++ more) others rest := by
  have first := stable.found found more true
  generalize whole : data ++ more = stream at pieces first
  cases pieces with
  | tail missing _ =>
    rw [first] at missing
    cases missing
  | token other _ others =>
    rw [first] at other
    cases other
    rw [← whole, List.drop_append_of_le_length (stable.bounds found).2] at others
    exact ⟨_, rfl, others⟩

/-- An empty buffer need not be split. -/
theorem Stable.guard (stable : Stable split) (data : List Byte) (ended : Bool) :
    (if data.isEmpty && !ended then (0, none) else split data ended) = split data ended := by
  split_ifs with nothing
  · obtain rfl : data = [] := by
      rw [Bool.and_eq_true, List.isEmpty_iff] at nothing
      exact nothing.1
    have missing := stable.empty ended
    exact Prod.ext (stable.waits missing).symm missing.symm
  · rfl

/-- What one pass can do. -/
theorem next_cases (stable : Stable split) (moved : s.next split limit = some later) :
    (∃ count token, split s.buffer s.ended = (count, some token) ∧
        later = { s with buffer := s.buffer.drop count, tokens := s.tokens ++ [token] }) ∨
      (split s.buffer s.ended).2 = none ∧ s.ended = false ∧
        (limit ≤ s.buffer.length ∧ s.tooLong = false ∧ later = { s with tooLong := true } ∨
          s.reads = [] ∧ later = { s with ended := true } ∨
          ∃ chunk reads, s.reads = chunk :: reads ∧
            later = { s with buffer := s.buffer ++ chunk, reads }) := by
  simp only [next, stable.guard] at moved
  split at moved
  · cases moved
  · rename_i healthy
    cases found : split s.buffer s.ended with
    | mk count token =>
      rw [found] at moved
      cases token with
      | some token => exact .inl ⟨count, token, rfl, (Option.some.inj moved).symm⟩
      | none =>
        have still : count = 0 := by
          have waits := @Stable.waits _ _ stable s.buffer s.ended
          rw [found] at waits
          exact waits rfl
        subst still
        simp only [List.drop_zero] at moved
        split at moved
        · cases moved
        · rename_i unfinished
          refine .inr ⟨rfl, Bool.eq_false_iff.mpr unfinished, ?_⟩
          split at moved
          · rename_i long
            exact .inl ⟨long, Bool.eq_false_iff.mpr healthy, (Option.some.inj moved).symm⟩
          · split at moved
            · rename_i nothing
              exact .inr (.inl ⟨nothing, (Option.some.inj moved).symm⟩)
            · rename_i chunk reads more
              exact .inr (.inr ⟨chunk, reads, more, (Option.some.inj moved).symm⟩)

/-- A scanner stops at the end of its input, or on an error. -/
theorem of_next_none (stable : Stable split) (stopped : s.next split limit = none) :
    s.tooLong = true ∨ s.ended = true ∧ (split s.buffer s.ended).2 = none := by
  simp only [next, stable.guard] at stopped
  split at stopped
  · rename_i failed
    exact .inl failed
  · split at stopped
    · cases stopped
    · rename_i missing
      split at stopped
      · rename_i ended
        exact .inr ⟨ended, missing⟩
      · split at stopped
        · cases stopped
        · split at stopped <;> cases stopped

theorem rank_next (stable : Stable split) (moved : s.next split limit = some later) :
    later.rank < s.rank := by
  rcases next_cases stable moved with
    ⟨count, token, found, rfl⟩ |
      ⟨_, unfinished, ⟨_, healthy, rfl⟩ | ⟨_, rfl⟩ | ⟨chunk, reads, more, rfl⟩⟩
  · obtain ⟨positive, within⟩ := stable.bounds found
    simp only [rank, List.length_drop]
    omega
  · simp [rank, healthy]
  · simp [rank, unfinished]
  · simp only [rank, more, List.length_append, List.flatten_cons, List.length_cons]
    omega

theorem next_run (stable : Stable split) :
    ∀ (passes : Nat) (s : Scanner Byte), s.rank ≤ passes →
      (run split limit passes s).next split limit = none := by
  intro passes
  induction passes with
  | zero =>
    intro s enough
    cases moved : s.next split limit with
    | none => exact moved
    | some later => exact absurd (rank_next stable moved) (by omega)
  | succ passes more =>
    intro s enough
    cases moved : s.next split limit with
    | none => simp only [run, moved]
    | some later =>
      simp only [run, moved]
      have falls := rank_next stable moved
      exact more later (by omega)

/-- One pass leaves the tokens that are still to come where they were. -/
theorem Ahead.next (stable : Stable split) (ahead : Ahead split limit all rest s)
    (moved : s.next split limit = some later) : Ahead split limit all rest later := by
  obtain ⟨⟨left, together, pieces⟩, done, fits⟩ := ahead
  rcases next_cases stable moved with
    ⟨count, token, found, rfl⟩ |
      ⟨missing, unfinished, ⟨long, _, rfl⟩ | ⟨nothing, rfl⟩ | ⟨chunk, reads, more, rfl⟩⟩
  · obtain ⟨others, rfl, following⟩ := pieces.head stable found
    exact ⟨⟨others, by rw [← together, List.append_assoc]; rfl, following⟩, done, fits⟩
  · exact absurd (pieces.short stable missing) (Nat.not_lt.mpr long)
  · exact ⟨⟨left, together, pieces⟩, fun _ => nothing, fits⟩
  · refine ⟨⟨left, together, ?_⟩, fun ended => ?_, fits⟩
    · rw [more, List.flatten_cons, ← List.append_assoc] at pieces
      exact pieces
    · exact absurd ended (Bool.eq_false_iff.mp unfinished)

theorem Ahead.run (stable : Stable split) :
    ∀ (passes : Nat) {s : Scanner Byte}, Ahead split limit all rest s →
      Ahead split limit all rest (s.run split limit passes) := by
  intro passes
  induction passes with
  | zero => exact fun ahead => ahead
  | succ passes more =>
    intro s ahead
    cases moved : s.next split limit with
    | none => simpa only [Scanner.run, moved] using ahead
    | some later =>
      simp only [Scanner.run, moved]
      exact more (ahead.next stable moved)

/-- Once the scanner has stopped, every token has been yielded. -/
theorem Ahead.tokens_of_stopped (stable : Stable split) (ahead : Ahead split limit all rest s)
    (stopped : s.next split limit = none) : s.tokens = all := by
  obtain ⟨⟨left, together, pieces⟩, done, fits⟩ := ahead
  rcases of_next_none stable stopped with failed | ⟨ended, missing⟩
  · exact absurd failed (Bool.eq_false_iff.mp fits)
  · rw [done ended, List.flatten_nil, List.append_nil] at pieces
    cases pieces with
    | tail _ _ => rwa [List.append_nil] at together
    | token found _ _ =>
      have other := stable.missing missing true
      rw [found] at other
      cases other

/-- The tokens are those of the whole stream, however the reads cut it. -/
theorem scan_pieces (stable : Stable split) {reads : List (List Byte)}
    (pieces : Pieces split limit reads.flatten all rest) :
    (scan split limit reads).tokens = all ∧ (scan split limit reads).tooLong = false := by
  have begun : Ahead split limit all rest (start reads) :=
    ⟨⟨all, rfl, pieces⟩, fun ended => (nomatch ended), rfl⟩
  have finished := begun.run stable (start reads).rank
  exact ⟨finished.tokens_of_stopped stable (next_run stable _ _ (Nat.le_refl _)), finished.fits⟩

end Scanner

end Lspd.Process
