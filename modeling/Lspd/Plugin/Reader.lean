import Lspd.Plugin.Json

/-! How `reader.Next` takes requests from the frames cln sends. The requests of a batch
wait in a buffer, whose backing array is used again for the next batch. -/

namespace Lspd.Plugin

open Lspd.Codec Lspd.Common

/-- A request, with the values of its raw messages. -/
structure Request where
  id : Option Json
  method : List Char
  jsonRpc : List Char
  params : Option Json

namespace Request

def zero : Request := ⟨none, [], [], none⟩

inductive Field where
  | id
  | method
  | jsonRpc
  | params

/-- Names are matched without regard to case. -/
def foldChar (char : Char) : Char :=
  if char = '\u017f' then 's' else if char = '\u212a' then 'k' else char.toLower

def fieldOf (key : List Char) : Option Field :=
  let name := key.map foldChar
  if name = "id".toList then some .id
  else if name = "method".toList then some .method
  else if name = "jsonrpc".toList then some .jsonRpc
  else if name = "params".toList then some .params
  else none

def kindOf : Json → String
  | .null => "null"
  | .bool _ => "bool"
  | .number _ => "number"
  | .string _ => "string"
  | .array _ => "array"
  | .object _ => "object"

/-- A field that is a string. A null leaves it as it is. -/
def unmarshalString (name : String) (value : Json) (old : List Char) : List Char × Option String :=
  match value with
  | .string text => (text, none)
  | .null => (old, none)
  | other =>
    (old, some ("json: cannot unmarshal " ++ kindOf other ++ " into Go struct field Request." ++
      name ++ " of type string"))

def unmarshalMember (request : Request) (member : List Char × Json) : Request × Option String :=
  match fieldOf member.1 with
  | some .id => ({ request with id := some member.2 }, none)
  | some .method =>
    let (method, err) := unmarshalString "method" member.2 request.method
    ({ request with method }, err)
  | some .jsonRpc =>
    let (jsonRpc, err) := unmarshalString "jsonrpc" member.2 request.jsonRpc
    ({ request with jsonRpc }, err)
  | some .params => ({ request with params := some member.2 }, none)
  | none => (request, none)

/-- `json.Unmarshal` into a request. All members are read, and the first error is
reported. -/
def unmarshal (value : Json) (request : Request) : Request × Option String :=
  match value with
  | .object members =>
    members.foldl (fun (request, err) member =>
      let (request, later) := unmarshalMember request member
      (request, err.or later)) (request, none)
  | .null => (request, none)
  | other =>
    (request, some ("json: cannot unmarshal " ++ kindOf other ++
      " into Go value of type cln_plugin.Request"))

end Request

/-- What `reader.Next` reports. The texts of syntax errors are left out. -/
inductive NextError where
  | eof
  | zeroLength
  | batch (err : Option String)
  | request (err : Option String)

/-- The frames the scanner has still to yield, the slice of buffered requests, what is
behind it in its backing array, and the requests that were allocated. Pointers are
positions among those. -/
structure Reader where
  frames : List GoString
  buffered : List (Option Nat)
  spare : List (Option Nat)
  heap : List Request

namespace Reader

def start (frames : List GoString) : Reader := ⟨frames, [], [], []⟩

/-- An element of a batch goes where the slot points to, if it does. -/
def store (heap : List Request) (slot : Option Nat) (element : Json) :
    List Request × Option Nat × Option String :=
  match element, slot with
  | .null, _ => (heap, none, none)
  | element, none =>
    let (request, err) := Request.unmarshal element .zero
    (heap ++ [request], some heap.length, err)
  | element, some address =>
    let (request, err) := Request.unmarshal element (heap.getD address .zero)
    (heap.set address request, some address, err)

/-- The next slot of a slice, and those behind it. When they are used up, the backing
array is replaced by a larger one. -/
def firstSlot (grow : Nat → Nat) (length : Nat) :
    List (Option Nat) → Option Nat × List (Option Nat)
  | [] => (none, List.replicate (grow length) none)
  | slot :: behind => (slot, behind)

/-- `json.Unmarshal` of an array into the slice, whose slots are used from the first one
on. -/
def fill (grow : Nat → Nat) (r : Reader) (slots : List (Option Nat)) : List Json →
    Reader × Option String
  | [] => ({ r with spare := slots }, none)
  | element :: rest =>
    let (slot, behind) := firstSlot grow r.buffered.length slots
    let (heap, pointer, err) := store r.heap slot element
    let (last, later) :=
      fill grow { r with heap, buffered := r.buffered ++ [pointer] } behind rest
    (last, err.or later)

def unmarshalBatch (grow : Nat → Nat) (r : Reader) : List Json → Reader × Option String
  | [] => ({ r with buffered := [], spare := [] }, none)
  | elements => fill grow { r with buffered := [] } (r.buffered ++ r.spare) elements

def takeFromBuffer (r : Reader) : Option Nat × Reader :=
  match r.buffered with
  | [] => (none, r)
  | req :: buffered => (req, { r with buffered })

/-- The requests of the next frame. -/
def nextFrame (grow : Nat → Nat) (r : Reader) (msg : GoString) :
    (Option Nat × Option NextError) × Reader :=
  if msg = [] then ((none, some .zeroLength), r)
  else if msg.head? = some (.char '[') then
    match unmarshal msg with
    | some (.array elements) =>
      match r.unmarshalBatch grow elements with
      | (r, some err) => ((none, some (.batch (some err))), r)
      | (r, none) =>
        let (req, r) := r.takeFromBuffer
        ((req, none), r)
    | _ => ((none, some (.batch none)), r)
  else
    match unmarshal msg with
    | none => ((none, some (.request none)), r)
    | some value =>
      match Request.unmarshal value .zero with
      | (_, some err) => ((none, some (.request (some err))), r)
      | (request, none) => ((some r.heap.length, none), { r with heap := r.heap ++ [request] })

/-- `Next`. A number is the request it points to. -/
def next (grow : Nat → Nat) (r : Reader) : (Option Nat × Option NextError) × Reader :=
  match r.takeFromBuffer with
  | (some req, r) => ((some req, none), r)
  | (none, r) =>
    match r.frames with
    | [] => ((none, some .eof), r)
    | msg :: frames => nextFrame grow { r with frames } msg

end Reader

section specification

/-- An object that is a request. -/
def IsRequest (value : Json) (request : Request) : Prop :=
  (∃ members, value = .object members) ∧ Request.unmarshal value .zero = (request, none)

/-- A frame is a json text of a request or of an array of requests. -/
inductive Holds : GoString → List Request → Prop
  | single {msg : GoString} {value : Json} {request : Request}
      (parsed : runes.parse msg = some value) (isRequest : IsRequest value request) :
      Holds msg [request]
  | batch {msg : GoString} {elements : List Json} {requests : List Request}
      (parsed : runes.parse msg = some (.array elements))
      (areRequests : List.Forall₂ IsRequest elements requests) : Holds msg requests

/-- An array is not empty and nothing stands before it. -/
def Usable (msg : GoString) : Prop :=
  runes.depth msg ≤ maxNestingDepth ∧ ∀ elements, runes.parse msg = some (.array elements) →
    elements ≠ [] ∧ msg.head? = some (.char '[')

/-- Calls of `Next` that all return a request and no error, up to the end of the
stream. -/
inductive Yields (grow : Nat → Nat) : Reader → List Nat → Reader → Prop
  | eof {r last : Reader} (ended : r.next grow = ((none, some .eof), last)) : Yields grow r [] last
  | request {r middle last : Reader} {address : Nat} {rest : List Nat}
      (returned : r.next grow = ((some address, none), middle))
      (more : Yields grow middle rest last) : Yields grow r (address :: rest) last

/-- The calls return these requests in order. Each of them is another one, and none has
been overwritten in the end. -/
def Delivers (grow : Nat → Nat) (r : Reader) (requests : List Request) : Prop :=
  ∃ addresses last, Yields grow r addresses last ∧ addresses.Nodup ∧
    addresses.map (fun address => last.heap[address]?) = requests.map some

end specification

namespace Reader

variable {grow : Nat → Nat} {r : Reader} {msg : GoString} {frames : List GoString}

theorem firstSlot_unused (grow : Nat → Nat) (length : Nat) {slots : List (Option Nat)}
    (unused : ∀ slot ∈ slots, slot = none) :
    ∃ behind, firstSlot grow length slots = (none, behind) ∧ ∀ slot ∈ behind, slot = none := by
  cases slots with
  | nil => exact ⟨_, rfl, fun slot member => List.eq_of_mem_replicate member⟩
  | cons slot behind =>
    obtain ⟨rfl, rest⟩ := List.forall_mem_cons.mp unused
    exact ⟨behind, rfl, rest⟩

theorem store_fresh {element : Json} {request : Request} (isRequest : IsRequest element request)
    (heap : List Request) :
    store heap none element = (heap ++ [request], some heap.length, none) := by
  obtain ⟨⟨members, rfl⟩, read⟩ := isRequest
  simp [store, read]

/-- Requests are put into new memory as long as no slot points anywhere. -/
theorem fill_fresh {elements : List Json} {requests : List Request}
    (areRequests : List.Forall₂ IsRequest elements requests) (r : Reader)
    {slots : List (Option Nat)} (unused : ∀ slot ∈ slots, slot = none) :
    ∃ spare, fill grow r slots elements =
      ({ r with
          buffered := r.buffered ++ (List.range' r.heap.length requests.length).map some
          spare
          heap := r.heap ++ requests }, none) ∧ ∀ slot ∈ spare, slot = none := by
  induction areRequests generalizing r slots with
  | nil => exact ⟨slots, by simp [fill], unused⟩
  | @cons element request elements requests isRequest more ih =>
    obtain ⟨behind, slot, unusedBehind⟩ := firstSlot_unused grow r.buffered.length unused
    obtain ⟨spare, filled, unusedSpare⟩ := ih
      { r with
        heap := r.heap ++ [request]
        buffered := r.buffered ++ [some r.heap.length] } unusedBehind
    refine ⟨spare, ?_, unusedSpare⟩
    simp only [fill, slot, store_fresh isRequest, filled]
    simp [List.range'_succ]

end Reader

section calls

variable {grow : Nat → Nat} {r middle last : Reader} {address : Nat} {addresses : List Nat}

/-- The next calls return these requests and leave the reader in another state. -/
def Hands (grow : Nat → Nat) (r : Reader) (returned : List Nat) (after : Reader) : Prop :=
  ∀ addresses last, Yields grow r addresses last ↔
    ∃ rest, addresses = returned ++ rest ∧ Yields grow after rest last

theorem Hands.refl (r : Reader) : Hands grow r [] r := by
  simp [Hands]

theorem Hands.trans {one two : List Nat} (first : Hands grow r one middle)
    (second : Hands grow middle two last) : Hands grow r (one ++ two) last := by
  intro addresses final
  rw [first addresses final]
  constructor
  · rintro ⟨_, rfl, more⟩
    obtain ⟨rest, rfl, later⟩ := (second _ final).mp more
    exact ⟨rest, (List.append_assoc ..).symm, later⟩
  · rintro ⟨rest, rfl, more⟩
    exact ⟨two ++ rest, List.append_assoc .., (second _ final).mpr ⟨rest, rfl, more⟩⟩

theorem hands_of_next (returned : r.next grow = ((some address, none), middle)) :
    Hands grow r [address] middle := by
  intro addresses last
  constructor
  · intro yields
    cases yields with
    | eof ended => cases returned.symm.trans ended
    | request step more =>
      cases returned.symm.trans step
      exact ⟨_, rfl, more⟩
  · rintro ⟨rest, rfl, more⟩
    exact .request returned more

/-- No request is returned although the stream goes on. -/
theorem not_yields (missing : (r.next grow).1.1 = none)
    (early : (r.next grow).1.2 ≠ some .eof) : ¬ Yields grow r addresses last := by
  rintro (ended | ⟨returned, _⟩)
  · rw [ended] at early
    exact early rfl
  · rw [returned] at missing
    cases missing

/-- The buffer is emptied before the next frame is read. -/
theorem hands_buffered (count first : Nat) (frames : List GoString) (spare : List (Option Nat))
    (heap : List Request) :
    Hands grow ⟨frames, (List.range' first count).map some, spare, heap⟩
      (List.range' first count) ⟨frames, [], spare, heap⟩ := by
  induction count generalizing first with
  | zero => exact .refl _
  | succ count ih =>
    have returned :
        Reader.next grow ⟨frames, (List.range' first (count + 1)).map some, spare, heap⟩ =
          ((some first, none), ⟨frames, (List.range' (first + 1) count).map some, spare, heap⟩) :=
      rfl
    exact (hands_of_next returned).trans (ih (first + 1))

end calls

section frames

variable {grow : Nat → Nat} {msg : GoString} {frames : List GoString} {requests : List Request}
  {spare : List (Option Nat)} {heap : List Request} {last : Reader}

theorem Holds.ne_nil (holds : Holds msg requests) : msg ≠ [] := by
  rintro rfl
  have nothing : runes.parse [] = none := rfl
  rcases holds with ⟨parsed, _⟩ | ⟨parsed, _⟩ <;> cases nothing.symm.trans parsed

/-- The first request of the frame is returned and the others are put into the buffer. -/
theorem next_of_usable (holds : Holds msg requests) (usable : Usable msg)
    (unused : ∀ slot ∈ spare, slot = none) (frames : List GoString) (heap : List Request) :
    ∃ count later, requests.length = count + 1 ∧ (∀ slot ∈ later, slot = none) ∧
      Reader.next grow ⟨msg :: frames, [], spare, heap⟩ = ((some heap.length, none),
        ⟨frames, (List.range' (heap.length + 1) count).map some, later, heap ++ requests⟩) := by
  have nonempty := holds.ne_nil
  obtain ⟨shallow, arrays⟩ := usable
  cases holds with
  | @single value request parsed isRequest =>
    have found : unmarshal msg = some value := unmarshal_eq_some.mpr ⟨shallow, parsed⟩
    obtain ⟨⟨members, rfl⟩, read⟩ := isRequest
    have noBracket : msg.head? ≠ some (.char '[') := by
      intro bracket
      obtain ⟨tail, rfl⟩ := List.head?_eq_some_iff.mp bracket
      obtain ⟨elements, array⟩ := Alphabet.parse_bracket (A := runes) parsed
      cases array
    refine ⟨0, spare, rfl, unused, ?_⟩
    simp [Reader.next, Reader.takeFromBuffer, Reader.nextFrame, nonempty, noBracket, found, read]
  | @batch elements _ parsed areRequests =>
    obtain ⟨filledIn, bracket⟩ := arrays elements parsed
    have found : unmarshal msg = some (.array elements) := unmarshal_eq_some.mpr ⟨shallow, parsed⟩
    obtain ⟨later, filled, unusedLater⟩ :=
      @Reader.fill_fresh grow _ _ areRequests ⟨frames, [], spare, heap⟩ spare unused
    cases areRequests with
    | nil => exact absurd rfl filledIn
    | @cons element request elements requests isRequest more =>
      refine ⟨requests.length, later, rfl, unusedLater, ?_⟩
      simp [Reader.next, Reader.takeFromBuffer, Reader.nextFrame, nonempty, bracket, found,
        Reader.unmarshalBatch, filled, List.range'_succ]

/-- A usable frame is handed out, and only new memory is used for it. -/
theorem hands_frame (holds : Holds msg requests) (usable : Usable msg)
    (unused : ∀ slot ∈ spare, slot = none) (frames : List GoString) (heap : List Request) :
    ∃ later, (∀ slot ∈ later, slot = none) ∧
      Hands grow ⟨msg :: frames, [], spare, heap⟩ (List.range' heap.length requests.length)
        ⟨frames, [], later, heap ++ requests⟩ := by
  obtain ⟨count, later, length, unusedLater, returned⟩ :=
    @next_of_usable grow _ _ _ holds usable unused frames heap
  rw [length]
  exact ⟨later, unusedLater, (hands_of_next returned).trans (hands_buffered _ _ _ _ _)⟩

theorem next_of_not_usable (holds : Holds msg requests) (unusable : ¬ Usable msg)
    (frames : List GoString) (heap : List Request) :
    (Reader.next grow ⟨msg :: frames, [], spare, heap⟩).1.1 = none ∧
      (Reader.next grow ⟨msg :: frames, [], spare, heap⟩).1.2 ≠ some .eof := by
  have nonempty := holds.ne_nil
  simp only [Reader.next, Reader.takeFromBuffer, Reader.nextFrame, nonempty, if_false]
  by_cases shallow : runes.depth msg ≤ maxNestingDepth
  · cases holds with
    | single parsed isRequest =>
      obtain ⟨⟨members, rfl⟩, _⟩ := isRequest
      refine absurd ⟨shallow, ?_⟩ unusable
      intro elements array
      cases parsed.symm.trans array
    | @batch elements _ parsed areRequests =>
      have found : unmarshal msg = some (.array elements) :=
        unmarshal_eq_some.mpr ⟨shallow, parsed⟩
      by_cases bracket : msg.head? = some (.char '[')
      · obtain rfl : elements = [] := by
          by_contra filledIn
          refine unusable ⟨shallow, ?_⟩
          intro others array
          cases parsed.symm.trans array
          exact ⟨filledIn, bracket⟩
        simp [bracket, found, Reader.unmarshalBatch]
      · simp [bracket, found, Request.unmarshal]
  · have lost : unmarshal msg = none := if_neg shallow
    split <;> simp [lost]

end frames

section streams

variable {grow : Nat → Nat} {frames : List GoString} {contents : List (List Request)}
  {spare : List (Option Nat)}

theorem hands_frames (holds : List.Forall₂ Holds frames contents)
    (usable : ∀ msg ∈ frames, Usable msg) (unused : ∀ slot ∈ spare, slot = none)
    (heap : List Request) :
    ∃ later, Hands grow ⟨frames, [], spare, heap⟩
      (List.range' heap.length contents.flatten.length)
        ⟨[], [], later, heap ++ contents.flatten⟩ := by
  induction holds generalizing spare heap with
  | nil => exact ⟨spare, by simpa using Hands.refl _⟩
  | @cons msg requests frames contents first more ih =>
    obtain ⟨usableFirst, usableMore⟩ := List.forall_mem_cons.mp usable
    obtain ⟨middle, unusedMiddle, handsFirst⟩ :=
      @hands_frame grow _ _ _ first usableFirst unused frames heap
    obtain ⟨later, handsMore⟩ := ih usableMore unusedMiddle (heap ++ requests)
    refine ⟨later, ?_⟩
    have joined := handsFirst.trans handsMore
    rw [List.length_append, List.range'_append_1] at joined
    simpa [List.flatten_cons] using joined

theorem usable_of_yields {addresses : List Nat} {heap : List Request} {last : Reader}
    (holds : List.Forall₂ Holds frames contents) (unused : ∀ slot ∈ spare, slot = none)
    (yields : Yields grow ⟨frames, [], spare, heap⟩ addresses last) :
    ∀ msg ∈ frames, Usable msg := by
  induction holds generalizing spare heap addresses with
  | nil => simp
  | @cons msg requests frames contents first more ih =>
    have usable : Usable msg := by
      by_contra unusable
      obtain ⟨missing, early⟩ := @next_of_not_usable grow _ _ spare first unusable frames heap
      exact not_yields missing early yields
    obtain ⟨later, unusedLater, hands⟩ :=
      @hands_frame grow _ _ _ first usable unused frames heap
    obtain ⟨rest, _, yieldsMore⟩ := (hands _ _).mp yields
    exact List.forall_mem_cons.mpr ⟨usable, ih unusedLater yieldsMore⟩

theorem map_range_getElem? (heap : List Request) :
    (List.range' 0 heap.length).map (fun address => heap[address]?) = heap.map some := by
  refine List.ext_getElem (by simp) ?_
  intro position inside _
  have bound : position < heap.length := by simpa using inside
  simp [bound]

/-- All requests of a stream are returned, each in its own memory, exactly if all its
frames can be used. -/
theorem next_delivers_iff (grow : Nat → Nat) (holds : List.Forall₂ Holds frames contents) :
    Delivers grow (Reader.start frames) contents.flatten ↔ ∀ msg ∈ frames, Usable msg := by
  constructor
  · rintro ⟨addresses, last, yields, _⟩
    exact usable_of_yields holds (by simp) yields
  · intro usable
    obtain ⟨later, hands⟩ := @hands_frames grow _ _ [] holds usable (by simp) []
    have ended : Yields grow ⟨[], [], later, contents.flatten⟩ []
        ⟨[], [], later, contents.flatten⟩ := .eof rfl
    refine ⟨_, _, (hands _ _).mpr ⟨[], rfl, ended⟩, ?_, ?_⟩
    · simp [List.nodup_range']
    · exact (congrArg _ (List.append_nil _)).trans (map_range_getElem? contents.flatten)

end streams

section samples

/-- A request for a method with a name of one letter. -/
def sampleText (id method : Char) : GoString :=
  ['{', '"', 'i', 'd', '"', ':', id, ',', '"', 'm', 'e', 't', 'h', 'o', 'd', '"', ':', '"', method,
    '"', '}'].map .char

def sampleValue (id method : Char) : Json :=
  .object [(['i', 'd'], .number [id]), (['m', 'e', 't', 'h', 'o', 'd'], .string [method])]

def sampleRequest (id method : Char) : Request := ⟨some (.number [id]), [method], [], none⟩

def sampleBatch : GoString :=
  .char '[' :: (sampleText '2' 'b' ++ .char ',' :: (sampleText '3' 'c' ++ [.char ']']))

theorem isRequest_sample (id method : Char) :
    IsRequest (sampleValue id method) (sampleRequest id method) := ⟨⟨_, rfl⟩, rfl⟩

theorem next_delivers_sample :
    Delivers (· + 1) (Reader.start [sampleText '1' 'a', sampleBatch])
      [sampleRequest '1' 'a', sampleRequest '2' 'b', sampleRequest '3' 'c'] := by
  have parsedSingle : runes.parse (sampleText '1' 'a') = some (sampleValue '1' 'a') := rfl
  have parsedBatch :
      runes.parse sampleBatch = some (.array [sampleValue '2' 'b', sampleValue '3' 'c']) := rfl
  have single : Holds (sampleText '1' 'a') [sampleRequest '1' 'a'] :=
    .single parsedSingle (isRequest_sample '1' 'a')
  have batch : Holds sampleBatch [sampleRequest '2' 'b', sampleRequest '3' 'c'] :=
    .batch parsedBatch (.cons (isRequest_sample '2' 'b') (.cons (isRequest_sample '3' 'c') .nil))
  have usableSingle : Usable (sampleText '1' 'a') := by
    refine ⟨by decide, ?_⟩
    intro elements array
    cases parsedSingle.symm.trans array
  have usableBatch : Usable sampleBatch := by
    refine ⟨by decide, ?_⟩
    intro elements array
    cases parsedBatch.symm.trans array
    exact ⟨by simp, rfl⟩
  have usable : ∀ msg ∈ [sampleText '1' 'a', sampleBatch], Usable msg := by
    simp [usableSingle, usableBatch]
  exact (next_delivers_iff (· + 1) (.cons single (.cons batch .nil))).mpr usable

def emptyBatch : GoString := [.char '[', .char ']']

/-- For a batch without requests there is neither a request nor an error, and the
request behind it is not returned. -/
theorem empty_batch_returns_nil :
    Holds emptyBatch [] ∧
      ((Reader.start [emptyBatch, sampleText '1' 'a']).next (· + 1)).1 = (none, none) ∧
      ∀ requests, ¬ Delivers (· + 1) (Reader.start [emptyBatch, sampleText '1' 'a']) requests := by
  have parsed : runes.parse emptyBatch = some (.array []) := rfl
  have returned : ((Reader.start [emptyBatch, sampleText '1' 'a']).next (· + 1)).1 =
      (none, none) := rfl
  refine ⟨.batch parsed .nil, returned, ?_⟩
  rintro requests ⟨addresses, last, yields, _⟩
  exact not_yields (by rw [returned]) (by rw [returned]; simp) yields

end samples

end Lspd.Plugin
