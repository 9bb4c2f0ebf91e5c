import Lspd.Lightning.OutPoint
import Lspd.Process.Scanner

/-! How the plugin's messages are told apart on its pipes: the writer ends every
text with two newlines, and the reader's scanner splits there. -/

namespace Lspd.Plugin

open Lspd.Lightning Lspd.Process

def newline : UInt8 := 10

/-- `TwoNewLines`. -/
def twoNewLines : Bytes := [newline, newline]

def maxIntakeBuffer : Nat := 500 * 1024 * 1023

/-- The first index at which two newlines stand. -/
def newlinesAt : Bytes → Option Nat
  | [] => none
  | byte :: rest =>
    if byte = newline ∧ rest.head? = some newline then some 0 else (newlinesAt rest).map (· + 1)

/-- What is left over at the end, without two newlines, is never a token. -/
def scanDoubleNewline (data : Bytes) (_atEOF : Bool) : Nat × Option Bytes :=
  match newlinesAt data with
  | some index => (index + 2, some (data.take index))
  | none => (0, none)

/-- `writer.Write` to a pipe that takes every byte. The mutex makes a write one
step. -/
def write {Msg : Type} (marshal : Msg → Except String Bytes) (out : Bytes) (msg : Msg) :
    Except String Unit × Bytes :=
  match marshal msg with
  | .error err => (.error ("failed to marshal to json: " ++ err), out)
  | .ok data => (.ok (), out ++ (data ++ twoNewLines))

/-- What stands on the pipe after some writes. -/
def written {Msg : Type} (marshal : Msg → Except String Bytes) (messages : List Msg) : Bytes :=
  messages.foldl (fun out msg => (write marshal out msg).2) []

/-- The json texts of the messages that were written. -/
def texts {Msg : Type} (marshal : Msg → Except String Bytes) (messages : List Msg) : List Bytes :=
  messages.filterMap fun msg => (marshal msg).toOption

/-- The texts before each pair of newlines in a whole stream, and the tail that no
pair ends. -/
def frames : Bytes → List Bytes × Bytes
  | [] => ([], [])
  | [byte] => ([], [byte])
  | one :: two :: rest =>
    if one = newline ∧ two = newline then ([] :: (frames rest).1, (frames rest).2)
    else match frames (two :: rest) with
      | (frame :: others, tail) => ((one :: frame) :: others, tail)
      | ([], tail) => ([], one :: tail)

/-- The stream is the frames, each with the first pair of newlines behind it, and a
tail without such a pair. -/
structure Framed (data : Bytes) (found : List Bytes) (tail : Bytes) : Prop where
  together : data = (found.map (· ++ twoNewLines)).flatten ++ tail
  first : ∀ frame ∈ found, newlinesAt (frame ++ [newline]) = none
  unterminated : newlinesAt tail = none

/-- Every frame fits the scanner's buffer with its newlines, and so does the tail. -/
def Fits (data : Bytes) : Prop :=
  (∀ frame ∈ (frames data).1, frame.length + 2 ≤ maxIntakeBuffer) ∧
    (frames data).2.length < maxIntakeBuffer

theorem newlinesAt_cons_none {byte : UInt8} {rest : Bytes} :
    newlinesAt (byte :: rest) = none ↔
      ¬(byte = newline ∧ rest.head? = some newline) ∧ newlinesAt rest = none := by
  rw [newlinesAt]
  split_ifs with pair <;> simp [pair]

/-- What follows the first newline behind a frame does not change how it begins. -/
theorem head?_frame (frame rest : Bytes) :
    (frame ++ newline :: rest).head? = (frame ++ [newline]).head? := by
  cases frame <;> rfl

/-- The first pair of newlines is found behind a frame, whatever follows. -/
theorem newlinesAt_append {frame : Bytes} (first : newlinesAt (frame ++ [newline]) = none)
    (rest : Bytes) : newlinesAt (frame ++ newline :: newline :: rest) = some frame.length := by
  induction frame with
  | nil => rfl
  | cons byte frame more =>
    rw [List.cons_append, newlinesAt_cons_none] at first
    rw [List.cons_append, newlinesAt, head?_frame, if_neg first.1, more first.2]
    rfl

theorem of_newlinesAt {data : Bytes} {index : Nat} (found : newlinesAt data = some index) :
    ∃ frame rest, data = frame ++ newline :: newline :: rest ∧ frame.length = index ∧
      newlinesAt (frame ++ [newline]) = none := by
  induction data generalizing index with
  | nil => cases found
  | cons byte data more =>
    rw [newlinesAt] at found
    split_ifs at found with pair
    · obtain ⟨rfl, second⟩ := pair
      obtain ⟨rest, rfl⟩ := List.head?_eq_some_iff.mp second
      exact ⟨[], rest, rfl, Option.some.inj found, rfl⟩
    · obtain ⟨earlier, before, rfl⟩ := Option.map_eq_some_iff.mp found
      obtain ⟨frame, rest, rfl, length, first⟩ := more before
      refine ⟨byte :: frame, rest, rfl, by rw [List.length_cons, length], ?_⟩
      rw [List.cons_append, newlinesAt_cons_none, ← head?_frame frame (newline :: rest)]
      exact ⟨pair, first⟩

theorem scanDoubleNewline_frame {frame : Bytes} (first : newlinesAt (frame ++ [newline]) = none)
    (rest : Bytes) (atEOF : Bool) :
    scanDoubleNewline (frame ++ newline :: newline :: rest) atEOF =
      (frame.length + 2, some frame) := by
  rw [scanDoubleNewline, newlinesAt_append first]
  simp

theorem scanDoubleNewline_some {data token : Bytes} {atEOF : Bool} {count : Nat}
    (found : scanDoubleNewline data atEOF = (count, some token)) :
    ∃ rest, data = token ++ newline :: newline :: rest ∧ count = token.length + 2 ∧
      newlinesAt (token ++ [newline]) = none := by
  rw [scanDoubleNewline] at found
  split at found
  · rename_i index at_
    obtain ⟨frame, rest, rfl, rfl, first⟩ := of_newlinesAt at_
    rw [List.take_left, Prod.mk.injEq, Option.some.injEq] at found
    obtain ⟨rfl, rfl⟩ := found
    exact ⟨rest, rfl, rfl, first⟩
  · cases found

theorem scanDoubleNewline_none {data : Bytes} {atEOF : Bool} :
    (scanDoubleNewline data atEOF).2 = none ↔ newlinesAt data = none := by
  rw [scanDoubleNewline]
  cases newlinesAt data <;> simp

theorem scanDoubleNewline_stable : Scanner.Stable scanDoubleNewline where
  found := by
    intro data ended count token found more later
    obtain ⟨rest, rfl, rfl, first⟩ := scanDoubleNewline_some found
    rw [List.append_assoc]
    exact scanDoubleNewline_frame first _ _
  bounds := by
    intro data ended count token found
    obtain ⟨rest, rfl, rfl, _⟩ := scanDoubleNewline_some found
    simp
  early := by
    intro data ended count token found
    obtain ⟨rest, rfl, rfl, first⟩ := scanDoubleNewline_some found
    rw [List.take_length_add_append]
    exact scanDoubleNewline_frame first _ _
  waits := by
    intro data ended missing
    rw [scanDoubleNewline, scanDoubleNewline_none.mp missing]
  empty _ := rfl

theorem frames_framed (data : Bytes) : Framed data (frames data).1 (frames data).2 := by
  fun_induction frames data with
  | case1 => exact ⟨rfl, by simp, rfl⟩
  | case2 byte => exact ⟨rfl, by simp, by simp [newlinesAt]⟩
  | case3 one two rest pair framed =>
    obtain ⟨rfl, rfl⟩ := pair
    obtain ⟨together, first, unterminated⟩ := framed
    refine ⟨?_, ?_, unterminated⟩
    · rw [List.map_cons, List.flatten_cons, List.append_assoc, ← together]
      rfl
    · intro frame member
      rcases List.mem_cons.mp member with rfl | member
      · rfl
      · exact first frame member
  | case4 one two rest single frame others tail split framed =>
    rw [split] at framed
    obtain ⟨together, first, unterminated⟩ := framed
    refine ⟨?_, ?_, unterminated⟩
    · rw [together]
      rfl
    · intro other member
      rcases List.mem_cons.mp member with rfl | member
      · have head : (frame ++ [newline]).head? = some two := by
          have heads := congrArg List.head? together
          rw [List.head?_cons] at heads
          rw [heads]
          cases frame <;> rfl
        rw [List.cons_append, newlinesAt_cons_none, head, Option.some.injEq]
        exact ⟨single, first frame (List.mem_cons_self ..)⟩
      · exact first other (List.mem_cons_of_mem _ member)
  | case5 one two rest single tail split framed =>
    rw [split] at framed
    obtain ⟨together, first, unterminated⟩ := framed
    obtain rfl : two :: rest = tail := together
    refine ⟨rfl, by simp, ?_⟩
    rw [newlinesAt_cons_none, List.head?_cons, Option.some.injEq]
    exact ⟨single, unterminated⟩

/-- A framed stream splits into its frames. -/
theorem Framed.pieces {data tail : Bytes} {found : List Bytes} (framed : Framed data found tail)
    (fits : ∀ frame ∈ found, frame.length + 2 ≤ maxIntakeBuffer)
    (short : tail.length < maxIntakeBuffer) :
    Scanner.Pieces scanDoubleNewline maxIntakeBuffer data found tail := by
  obtain ⟨rfl, first, unterminated⟩ := framed
  induction found with
  | nil => exact .tail (scanDoubleNewline_none.mpr unterminated) short
  | cons frame found more =>
    have others := more (fun other member => fits other (List.mem_cons_of_mem _ member))
      (fun other member => first other (List.mem_cons_of_mem _ member))
    rw [List.map_cons, List.flatten_cons, List.append_assoc, List.append_assoc]
    refine .token (scanDoubleNewline_frame (first frame (List.mem_cons_self ..)) _ true)
      (fits frame (List.mem_cons_self ..)) ?_
    rw [List.drop_length_add_append]
    exact others

section Written

variable {Msg : Type} {marshal : Msg → Except String Bytes}

theorem newlinesAt_eq_none {data : Bytes} (plain : newline ∉ data) :
    newlinesAt (data ++ [newline]) = none := by
  induction data with
  | nil => rfl
  | cons byte data more =>
    rw [List.mem_cons, not_or] at plain
    rw [List.cons_append, newlinesAt_cons_none]
    exact ⟨fun pair => plain.1 pair.1.symm, more plain.2⟩

theorem written_eq (marshal : Msg → Except String Bytes) (messages : List Msg) :
    written marshal messages = ((texts marshal messages).map (· ++ twoNewLines)).flatten := by
  suffices ∀ out, messages.foldl (fun out msg => (write marshal out msg).2) out =
      out ++ ((texts marshal messages).map (· ++ twoNewLines)).flatten from this []
  induction messages with
  | nil => simp [texts]
  | cons msg messages more =>
    intro out
    rw [List.foldl_cons, more]
    cases result : marshal msg <;> simp [write, texts, result, Except.toOption]

theorem mem_texts {text : Bytes} {messages : List Msg} (member : text ∈ texts marshal messages) :
    ∃ msg ∈ messages, marshal msg = .ok text := by
  obtain ⟨msg, among, result⟩ := List.mem_filterMap.mp member
  refine ⟨msg, among, ?_⟩
  cases outcome : marshal msg with
  | error err =>
    rw [outcome] at result
    cases result
  | ok data =>
    rw [outcome] at result
    rw [Option.some.inj result]

theorem written_framed (plain : ∀ msg text, marshal msg = .ok text → newline ∉ text)
    (messages : List Msg) : Framed (written marshal messages) (texts marshal messages) [] := by
  refine ⟨by rw [written_eq, List.append_nil], ?_, rfl⟩
  intro text member
  obtain ⟨msg, _, result⟩ := mem_texts member
  exact newlinesAt_eq_none (plain msg text result)

/-- The reader's scanner yields the texts that were written, and of any stream its
frames, however it is cut into reads. -/
theorem scanner_yields_frames (nonempty : ∀ msg text, marshal msg = .ok text → text ≠ [])
    (plain : ∀ msg text, marshal msg = .ok text → newline ∉ text) :
    (∀ messages reads, reads.flatten = written marshal messages →
      (∀ text ∈ texts marshal messages, text.length + 2 ≤ maxIntakeBuffer) →
      (Scanner.scan scanDoubleNewline maxIntakeBuffer reads).tokens = texts marshal messages ∧
        [] ∉ texts marshal messages) ∧
    ∀ reads : List Bytes, Fits reads.flatten →
      (Scanner.scan scanDoubleNewline maxIntakeBuffer reads).tokens = (frames reads.flatten).1 ∧
        Framed reads.flatten (frames reads.flatten).1 (frames reads.flatten).2 := by
  constructor
  · intro messages reads same fits
    have pieces := (written_framed plain messages).pieces fits (by decide)
    rw [← same] at pieces
    refine ⟨(Scanner.scan_pieces scanDoubleNewline_stable pieces).1, fun empty => ?_⟩
    obtain ⟨msg, _, result⟩ := mem_texts empty
    exact nonempty msg [] result rfl
  · intro reads fits
    have framed := frames_framed reads.flatten
    exact ⟨(Scanner.scan_pieces scanDoubleNewline_stable (framed.pieces fits.1 fits.2)).1, framed⟩

end Written

/-- `json.Marshal` of a bool. -/
def marshalBool (value : Bool) : Except String Bytes :=
  .ok (if value then [116, 114, 117, 101] else [102, 97, 108, 115, 101])

theorem marshalBool_texts (value : Bool) (text : Bytes) (result : marshalBool value = .ok text) :
    text ≠ [] ∧ newline ∉ text := by
  cases value <;> cases result <;> decide

/-- Two messages with a read that ends between two newlines, and a stream with three
newlines in a row. -/
theorem scanner_yields_frames_sample :
    (Scanner.scan scanDoubleNewline maxIntakeBuffer
        [[116, 114], [117, 101, 10], [10, 102, 97, 108], [115, 101, 10, 10]]).tokens =
      [[116, 114, 117, 101], [102, 97, 108, 115, 101]] ∧
    (Scanner.scan scanDoubleNewline maxIntakeBuffer [[49, 10], [10, 10], [50]]).tokens =
      [[49]] := by
  have sample := scanner_yields_frames
    (fun value text result => (marshalBool_texts value text result).1)
    (fun value text result => (marshalBool_texts value text result).2)
  exact ⟨(sample.1 [true, false] _ rfl (by decide)).1,
    (sample.2 [[49, 10], [10, 10], [50]] (by constructor <;> decide)).1⟩

end Lspd.Plugin
