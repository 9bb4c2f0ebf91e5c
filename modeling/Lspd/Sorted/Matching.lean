import Mathlib.Data.List.Basic
import Mathlib.Data.List.Sort

/-! Matching the entries of two lists with one cursor each: a look at the two entries
at hand says which cursor moves on, or that the two belong together. -/

namespace Lspd.Sorted

open Std

inductive Move where
  | left
  | right
  | both
  deriving DecidableEq

variable {Left Right : Type} (move : Left → Right → Move) (join : Left → Right → Left × Right)

/-- The lists after the walk, in which entries that belong together are joined. -/
def walk : List Left → List Right → List Left × List Right
  | [], rights => ([], rights)
  | left :: lefts, [] => (left :: lefts, [])
  | left :: lefts, right :: rights =>
    match move left right with
    | .left =>
      let rest := walk lefts (right :: rights)
      (left :: rest.1, rest.2)
    | .right =>
      let rest := walk (left :: lefts) rights
      (rest.1, right :: rest.2)
    | .both =>
      let rest := walk lefts rights
      ((join left right).1 :: rest.1, (join left right).2 :: rest.2)
termination_by lefts rights => lefts.length + rights.length

/-- The entries a walk joins and those it passes over. -/
structure Trace (Left Right : Type) where
  joined : List (Left × Right)
  lefts : List Left
  rights : List Right

def trace : List Left → List Right → Trace Left Right
  | [], rights => ⟨[], [], rights⟩
  | left :: lefts, [] => ⟨[], left :: lefts, []⟩
  | left :: lefts, right :: rights =>
    match move left right with
    | .left =>
      let rest := trace lefts (right :: rights)
      { rest with lefts := left :: rest.lefts }
    | .right =>
      let rest := trace (left :: lefts) rights
      { rest with rights := right :: rest.rights }
    | .both =>
      let rest := trace lefts rights
      { rest with joined := (left, right) :: rest.joined }
termination_by lefts rights => lefts.length + rights.length

section positions

/-- The positions that were joined. Everything at other positions is as before, and
the order of the pairs shows that no position is in two of them. -/
structure Matching (lefts : List Left) (rights : List Right)
    (after : List Left × List Right) (pairs : List (Nat × Nat)) : Prop where
  increasing : pairs.Pairwise fun one two => one.1 < two.1 ∧ one.2 < two.2
  joined : ∀ pair ∈ pairs, ∃ left right, lefts[pair.1]? = some left ∧
    rights[pair.2]? = some right ∧ move left right = .both ∧
    after.1[pair.1]? = some (join left right).1 ∧ after.2[pair.2]? = some (join left right).2
  lefts : ∀ index, index ∉ pairs.map Prod.fst → after.1[index]? = lefts[index]?
  rights : ∀ index, index ∉ pairs.map Prod.snd → after.2[index]? = rights[index]?

/-- The pairs of two lists with some more entries in front. -/
def shift (ahead behind : Nat) (pairs : List (Nat × Nat)) : List (Nat × Nat) :=
  pairs.map fun pair => (pair.1 + ahead, pair.2 + behind)

variable {move join} {lefts : List Left} {rights : List Right} {after : List Left × List Right}
  {pairs : List (Nat × Nat)} {left : Left} {right : Right}

theorem shift_increasing {ahead behind : Nat}
    (increasing : pairs.Pairwise fun one two => one.1 < two.1 ∧ one.2 < two.2) :
    (shift ahead behind pairs).Pairwise fun one two => one.1 < two.1 ∧ one.2 < two.2 := by
  refine List.pairwise_map.mpr (increasing.imp ?_)
  intro one two before
  exact ⟨Nat.add_lt_add_right before.1 _, Nat.add_lt_add_right before.2 _⟩

theorem mem_shift {ahead behind : Nat} {pair : Nat × Nat} :
    pair ∈ shift ahead behind pairs ↔
      ∃ old ∈ pairs, (old.1 + ahead, old.2 + behind) = pair := List.mem_map

theorem fst_mem_shift {ahead behind index : Nat} (member : index ∈ pairs.map Prod.fst) :
    index + ahead ∈ (shift ahead behind pairs).map Prod.fst := by
  obtain ⟨pair, among, rfl⟩ := List.mem_map.mp member
  exact List.mem_map.mpr ⟨_, mem_shift.mpr ⟨pair, among, rfl⟩, rfl⟩

theorem snd_mem_shift {ahead behind index : Nat} (member : index ∈ pairs.map Prod.snd) :
    index + behind ∈ (shift ahead behind pairs).map Prod.snd := by
  obtain ⟨pair, among, rfl⟩ := List.mem_map.mp member
  exact List.mem_map.mpr ⟨_, mem_shift.mpr ⟨pair, among, rfl⟩, rfl⟩

theorem Matching.none (lefts : List Left) (rights : List Right) :
    Matching move join lefts rights (lefts, rights) [] :=
  ⟨.nil, nofun, fun _ _ => rfl, fun _ _ => rfl⟩

/-- An entry of the first list is passed over. -/
theorem Matching.skipLeft (matching : Matching move join lefts rights after pairs) (left : Left) :
    Matching move join (left :: lefts) rights (left :: after.1, after.2) (shift 1 0 pairs) where
  increasing := shift_increasing matching.increasing
  joined := by
    intro pair member
    obtain ⟨old, among, rfl⟩ := mem_shift.mp member
    simpa using matching.joined old among
  lefts := by
    intro index outside
    cases index with
    | zero => rfl
    | succ index =>
      exact matching.lefts index fun member => outside (fst_mem_shift member)
  rights := fun index outside => matching.rights index fun member => outside (snd_mem_shift member)

theorem Matching.skipRight (matching : Matching move join lefts rights after pairs)
    (right : Right) :
    Matching move join lefts (right :: rights) (after.1, right :: after.2) (shift 0 1 pairs) where
  increasing := shift_increasing matching.increasing
  joined := by
    intro pair member
    obtain ⟨old, among, rfl⟩ := mem_shift.mp member
    simpa using matching.joined old among
  lefts := fun index outside => matching.lefts index fun member => outside (fst_mem_shift member)
  rights := by
    intro index outside
    cases index with
    | zero => rfl
    | succ index =>
      exact matching.rights index fun member => outside (snd_mem_shift member)

/-- The entries at hand are joined. -/
theorem Matching.together (matching : Matching move join lefts rights after pairs)
    (here : move left right = .both) :
    Matching move join (left :: lefts) (right :: rights)
      ((join left right).1 :: after.1, (join left right).2 :: after.2)
      ((0, 0) :: shift 1 1 pairs) where
  increasing := by
    refine List.pairwise_cons.mpr ⟨?_, shift_increasing matching.increasing⟩
    intro pair member
    obtain ⟨old, _, rfl⟩ := mem_shift.mp member
    exact ⟨Nat.succ_pos _, Nat.succ_pos _⟩
  joined := by
    intro pair member
    rcases List.mem_cons.mp member with rfl | later
    · exact ⟨left, right, rfl, rfl, here, rfl, rfl⟩
    · obtain ⟨old, among, rfl⟩ := mem_shift.mp later
      simpa using matching.joined old among
  lefts := by
    intro index outside
    rw [List.map_cons, List.mem_cons, not_or] at outside
    cases index with
    | zero => exact absurd rfl outside.1
    | succ index => exact matching.lefts index fun member => outside.2 (fst_mem_shift member)
  rights := by
    intro index outside
    rw [List.map_cons, List.mem_cons, not_or] at outside
    cases index with
    | zero => exact absurd rfl outside.1
    | succ index => exact matching.rights index fun member => outside.2 (snd_mem_shift member)

theorem exists_mem_shift {ahead behind : Nat} {pairs : List (Nat × Nat)}
    {holds : Nat × Nat → Prop} : (∃ pair ∈ shift ahead behind pairs, holds pair) ↔
      ∃ pair ∈ pairs, holds (pair.1 + ahead, pair.2 + behind) := by
  constructor
  · rintro ⟨pair, member, held⟩
    obtain ⟨old, among, rfl⟩ := mem_shift.mp member
    exact ⟨old, among, held⟩
  · rintro ⟨pair, member, held⟩
    exact ⟨_, mem_shift.mpr ⟨pair, member, rfl⟩, held⟩

/-- The joined entries are those at the pairs of positions. -/
theorem exists_traced (lefts : List Left) (rights : List Right) :
    ∃ pairs, Matching move join lefts rights (walk move join lefts rights) pairs ∧
      ∀ left right, (left, right) ∈ (trace move lefts rights).joined ↔
        ∃ pair ∈ pairs, lefts[pair.1]? = some left ∧ rights[pair.2]? = some right := by
  fun_induction walk move join lefts rights with
  | case1 rights => exact ⟨[], .none [] rights, by simp [trace]⟩
  | case2 left lefts => exact ⟨[], .none (left :: lefts) [], by simp [trace]⟩
  | case3 left lefts right rights here rest ih =>
    obtain ⟨pairs, matching, entries⟩ := ih
    refine ⟨_, matching.skipLeft left, ?_⟩
    intro one two
    rw [trace, here, exists_mem_shift]
    exact entries one two
  | case4 left lefts right rights here rest ih =>
    obtain ⟨pairs, matching, entries⟩ := ih
    refine ⟨_, matching.skipRight right, ?_⟩
    intro one two
    rw [trace, here, exists_mem_shift]
    exact entries one two
  | case5 left lefts right rights here rest ih =>
    obtain ⟨pairs, matching, entries⟩ := ih
    refine ⟨_, matching.together here, ?_⟩
    intro one two
    rw [trace, here, List.exists_mem_cons_iff, exists_mem_shift]
    simp [entries, eq_comm]

theorem exists_matching (lefts : List Left) (rights : List Right) :
    ∃ pairs, Matching move join lefts rights (walk move join lefts rights) pairs := by
  obtain ⟨pairs, matching, _⟩ := @exists_traced _ _ move join lefts rights
  exact ⟨pairs, matching⟩

/-- Pairs of positions at which related entries were joined, and no other entry changed. -/
structure Joined (related : Left → Right → Prop) (join : Left → Right → Left × Right)
    (lefts : List Left) (rights : List Right) (after : List Left × List Right)
    (pairs : List (Nat × Nat)) : Prop where
  increasing : pairs.Pairwise fun one two => one.1 < two.1 ∧ one.2 < two.2
  joined : ∀ pair ∈ pairs, ∃ left right, lefts[pair.1]? = some left ∧
    rights[pair.2]? = some right ∧ related left right ∧
    after.1[pair.1]? = some (join left right).1 ∧ after.2[pair.2]? = some (join left right).2
  lefts : ∀ index, index ∉ pairs.map Prod.fst → after.1[index]? = lefts[index]?
  rights : ∀ index, index ∉ pairs.map Prod.snd → after.2[index]? = rights[index]?

theorem Matching.toJoined (matching : Matching move join lefts rights after pairs) :
    Joined (fun left right => move left right = .both) join lefts rights after pairs :=
  ⟨matching.increasing, matching.joined, matching.lefts, matching.rights⟩

variable {related other : Left → Right → Prop} {more : List (Nat × Nat)}

theorem Joined.imp (joined : Joined related join lefts rights after pairs)
    (implies : ∀ pair ∈ pairs, ∀ left right, lefts[pair.1]? = some left →
      rights[pair.2]? = some right → related left right → other left right) :
    Joined other join lefts rights after pairs where
  increasing := joined.increasing
  joined := by
    intro pair member
    obtain ⟨left, right, atLeft, atRight, holds, newLeft, newRight⟩ := joined.joined pair member
    exact ⟨left, right, atLeft, atRight, implies pair member left right atLeft atRight holds,
      newLeft, newRight⟩
  lefts := joined.lefts
  rights := joined.rights

/-- If joining changes an entry of the first list, the joined positions are the changed ones. -/
theorem Joined.mem_fst_iff (joined : Joined related join lefts rights after pairs)
    (changes : ∀ left right, related left right → (join left right).1 ≠ left) (index : Nat) :
    index ∈ pairs.map Prod.fst ↔ after.1[index]? ≠ lefts[index]? := by
  constructor
  · intro member
    obtain ⟨pair, among, rfl⟩ := List.mem_map.mp member
    obtain ⟨left, right, atLeft, _, holds, newLeft, _⟩ := joined.joined pair among
    rw [atLeft, newLeft]
    exact fun same => changes left right holds (Option.some.inj same)
  · intro changed
    by_contra outside
    exact changed (joined.lefts index outside)

theorem Joined.mem_snd_iff (joined : Joined related join lefts rights after pairs)
    (changes : ∀ left right, related left right → (join left right).2 ≠ right) (index : Nat) :
    index ∈ pairs.map Prod.snd ↔ after.2[index]? ≠ rights[index]? := by
  constructor
  · intro member
    obtain ⟨pair, among, rfl⟩ := List.mem_map.mp member
    obtain ⟨left, right, _, atRight, holds, _, newRight⟩ := joined.joined pair among
    rw [atRight, newRight]
    exact fun same => changes left right holds (Option.some.inj same)
  · intro changed
    by_contra outside
    exact changed (joined.rights index outside)

/-- Increasing pairs are determined by the positions on both sides. -/
theorem pairs_eq {one two : List (Nat × Nat)}
    (first : one.Pairwise fun before after => before.1 < after.1 ∧ before.2 < after.2)
    (second : two.Pairwise fun before after => before.1 < after.1 ∧ before.2 < after.2)
    (lefts : ∀ index, index ∈ one.map Prod.fst ↔ index ∈ two.map Prod.fst)
    (rights : ∀ index, index ∈ one.map Prod.snd ↔ index ∈ two.map Prod.snd) : one = two := by
  have sortedLeft {pairs : List (Nat × Nat)}
      (increasing : pairs.Pairwise fun before after => before.1 < after.1 ∧ before.2 < after.2) :
      (pairs.map Prod.fst).Pairwise (· < ·) := List.pairwise_map.mpr (increasing.imp And.left)
  have sortedRight {pairs : List (Nat × Nat)}
      (increasing : pairs.Pairwise fun before after => before.1 < after.1 ∧ before.2 < after.2) :
      (pairs.map Prod.snd).Pairwise (· < ·) := List.pairwise_map.mpr (increasing.imp And.right)
  have sameLeft := (sortedLeft first).eq_of_mem_iff (sortedLeft second) lefts
  have sameRight := (sortedRight first).eq_of_mem_iff (sortedRight second) rights
  have zipped (pairs : List (Nat × Nat)) : pairs = (pairs.map Prod.fst).zip (pairs.map Prod.snd) :=
    List.zip_of_prod rfl rfl
  rw [zipped one, sameLeft, sameRight, ← zipped]

/-- Where joining shows on both sides, the pairs can be told from the lists. -/
theorem Joined.unique (joined : Joined related join lefts rights after pairs)
    (again : Joined other join lefts rights after more)
    (changes : ∀ left right, related left right ∨ other left right →
      (join left right).1 ≠ left ∧ (join left right).2 ≠ right) : pairs = more := by
  apply pairs_eq joined.increasing again.increasing
  · intro index
    rw [joined.mem_fst_iff fun left right holds => (changes left right (.inl holds)).1,
      again.mem_fst_iff fun left right holds => (changes left right (.inr holds)).1]
  · intro index
    rw [joined.mem_snd_iff fun left right holds => (changes left right (.inl holds)).2,
      again.mem_snd_iff fun left right holds => (changes left right (.inr holds)).2]

end positions

section counts

variable {Key : Type} [DecidableEq Key] {compare : Key → Key → Ordering} [TransCmp compare]
  {leftKey : Left → Key} {rightKey : Right → Key} {leftFree : Left → Bool}
  {rightFree : Right → Bool}

/-- A cursor moves on past an entry only if that one is taken or its key comes before
the other one; free entries with the same key belong together. -/
structure Justified (move : Left → Right → Move) (compare : Key → Key → Ordering)
    (leftKey : Left → Key) (rightKey : Right → Key) (leftFree : Left → Bool)
    (rightFree : Right → Bool) : Prop where
  left : ∀ left right, move left right = .left →
    leftFree left = false ∨ compare (leftKey left) (rightKey right) = .lt
  right : ∀ left right, move left right = .right →
    rightFree right = false ∨ compare (rightKey right) (leftKey left) = .lt
  both : ∀ left right, move left right = .both →
    leftFree left = true ∧ rightFree right = true ∧ leftKey left = rightKey right

/-- How many free entries of a list have a key. -/
def freeWith {Entry : Type} (key : Entry → Key) (free : Entry → Bool) (wanted : Key)
    (entries : List Entry) : Nat :=
  entries.countP fun entry => free entry && key entry = wanted

theorem freeWith_cons {Entry : Type} (key : Entry → Key) (free : Entry → Bool) (wanted : Key)
    (first : Entry) (entries : List Entry) :
    freeWith key free wanted (first :: entries) =
      freeWith key free wanted entries + if free first ∧ key first = wanted then 1 else 0 := by
  simp [freeWith, List.countP_cons]

/-- Nothing in a sorted list has a key that comes before the first one. -/
theorem freeWith_eq_zero {Entry : Type} {key : Entry → Key} {free : Entry → Bool} {wanted : Key}
    {first : Entry} {entries : List Entry}
    (sorted : (first :: entries).Pairwise fun one two => (compare (key one) (key two)).isLE)
    (before : compare wanted (key first) = .lt) : freeWith key free wanted (first :: entries) = 0 := by
  rw [freeWith, List.countP_eq_zero]
  intro entry member
  have later : compare wanted (key entry) = .lt := by
    rcases List.mem_cons.mp member with rfl | behind
    · exact before
    · exact TransCmp.lt_of_lt_of_isLE before (List.rel_of_pairwise_cons sorted behind)
  have different : key entry ≠ wanted := by
    rintro rfl
    cases later.symm.trans ReflCmp.compare_self
  simp [different]

variable {fresh : Left → Left → Bool}

/-- How many entries of a list with a key were replaced by a fresh one. -/
def freshWith (leftKey : Left → Key) (fresh : Left → Left → Bool) (wanted : Key)
    (before after : List Left) : Nat :=
  (before.zip after).countP fun pair => fresh pair.1 pair.2 && leftKey pair.1 = wanted

theorem freshWith_cons (leftKey : Left → Key) (fresh : Left → Left → Bool) (wanted : Key)
    (old new : Left) (before after : List Left) :
    freshWith leftKey fresh wanted (old :: before) (new :: after) =
      freshWith leftKey fresh wanted before after +
        if fresh old new ∧ leftKey old = wanted then 1 else 0 := by
  simp [freshWith, List.countP_cons]

theorem freshWith_self (kept : ∀ left, fresh left left = false) (wanted : Key)
    (lefts : List Left) : freshWith leftKey fresh wanted lefts lefts = 0 := by
  induction lefts with
  | nil => rfl
  | cons left lefts ih => simp [freshWith_cons, ih, kept]

/-- The walk over two sorted lists joins as many entries of every key as it can. -/
theorem freshWith_walk (justified : Justified move compare leftKey rightKey leftFree rightFree)
    (kept : ∀ left, fresh left left = false)
    (made : ∀ left right, move left right = .both → fresh left (join left right).1 = true)
    (wanted : Key) {lefts : List Left} {rights : List Right}
    (sortedLeft : lefts.Pairwise fun one two => (compare (leftKey one) (leftKey two)).isLE)
    (sortedRight : rights.Pairwise fun one two => (compare (rightKey one) (rightKey two)).isLE) :
    freshWith leftKey fresh wanted lefts (walk move join lefts rights).1 =
      min (freeWith leftKey leftFree wanted lefts) (freeWith rightKey rightFree wanted rights) := by
  fun_induction walk move join lefts rights with
  | case1 rights => simp [freshWith, freeWith]
  | case2 left lefts => simp [freshWith_self kept, freeWith]
  | case3 left lefts right rights here rest ih =>
    have counted := ih sortedLeft.of_cons sortedRight
    rw [freshWith_cons, kept, freeWith_cons, counted]
    rcases justified.left left right here with taken | before
    · simp [taken]
    · by_cases same : leftKey left = wanted
      · simp [freeWith_eq_zero sortedRight (same ▸ before)]
      · simp [same]
  | case4 left lefts right rights here rest ih =>
    have counted := ih sortedLeft sortedRight.of_cons
    rw [freeWith_cons rightKey, counted]
    rcases justified.right left right here with taken | before
    · simp [taken]
    · by_cases same : rightKey right = wanted
      · simp [freeWith_eq_zero sortedLeft (same ▸ before)]
      · simp [same]
  | case5 left lefts right rights here rest ih =>
    obtain ⟨leftFree, rightFree, same⟩ := justified.both left right here
    have counted := ih sortedLeft.of_cons sortedRight.of_cons
    rw [freshWith_cons, made left right here, freeWith_cons, freeWith_cons, counted, leftFree,
      rightFree, same]
    split <;> omega

/-- The entries with a key that were replaced by a fresh one, in their order. -/
def freshEntries (leftKey : Left → Key) (fresh : Left → Left → Bool) (wanted : Key)
    (before after : List Left) : List Left :=
  ((before.zip after).filter fun pair => fresh pair.1 pair.2 && leftKey pair.1 = wanted).map Prod.fst

theorem freshEntries_cons (leftKey : Left → Key) (fresh : Left → Left → Bool) (wanted : Key)
    (old new : Left) (before after : List Left) :
    freshEntries leftKey fresh wanted (old :: before) (new :: after) =
      (if fresh old new ∧ leftKey old = wanted then [old] else []) ++
        freshEntries leftKey fresh wanted before after := by
  simp only [freshEntries, List.zip_cons_cons, List.filter_cons]
  split <;> simp_all

theorem freshEntries_self (kept : ∀ left, fresh left left = false) (wanted : Key)
    (lefts : List Left) : freshEntries leftKey fresh wanted lefts lefts = [] := by
  induction lefts with
  | nil => rfl
  | cons left lefts ih => simp [freshEntries_cons, ih, kept]

/-- The fresh entries are those at the joined positions. -/
theorem mem_freshEntries_iff {related : Left → Right → Prop} {lefts : List Left}
    {rights : List Right} {after : List Left × List Right} {pairs : List (Nat × Nat)}
    (joined : Joined related join lefts rights after pairs)
    (kept : ∀ left, fresh left left = false)
    (made : ∀ left right, related left right → fresh left (join left right).1 = true)
    {wanted : Key} {left : Left} :
    left ∈ freshEntries leftKey fresh wanted lefts after.1 ↔
      ∃ pair ∈ pairs, lefts[pair.1]? = some left ∧ leftKey left = wanted := by
  constructor
  · intro member
    obtain ⟨⟨old, new⟩, among, rfl⟩ := List.mem_map.mp member
    obtain ⟨zipped, chosen⟩ := List.mem_filter.mp among
    simp only [Bool.and_eq_true, decide_eq_true_eq] at chosen
    obtain ⟨index, found⟩ := List.mem_iff_getElem?.mp zipped
    obtain ⟨before, now⟩ := List.getElem?_zip_eq_some.mp found
    by_cases inside : index ∈ pairs.map Prod.fst
    · obtain ⟨pair, present, rfl⟩ := List.mem_map.mp inside
      exact ⟨pair, present, before, chosen.2⟩
    · have same := joined.lefts index inside
      rw [before, now] at same
      obtain rfl : new = old := Option.some.inj same
      simp [kept] at chosen
  · rintro ⟨pair, present, before, key⟩
    obtain ⟨own, right, atLeft, _, holds, now, _⟩ := joined.joined pair present
    obtain rfl := Option.some.inj (before.symm.trans atLeft)
    refine List.mem_map.mpr ⟨(left, (join left right).1), List.mem_filter.mpr ⟨?_, ?_⟩, rfl⟩
    · exact List.mem_iff_getElem?.mpr ⟨pair.1, List.getElem?_zip_eq_some.mpr ⟨before, now⟩⟩
    · simp [made left right holds, key]

/-- The free entries with a key in front of the first entry whose key comes later. -/
def reachable (compare : Key → Key → Ordering) (leftKey : Left → Key) (leftFree : Left → Bool)
    (wanted : Key) (lefts : List Left) : List Left :=
  (lefts.takeWhile fun left => (compare (leftKey left) wanted).isLE).filter
    fun left => leftFree left && leftKey left = wanted

omit [TransCmp compare] in
theorem reachable_cons (leftKey : Left → Key) (leftFree : Left → Bool) (wanted : Key)
    (left : Left) (lefts : List Left) :
    reachable compare leftKey leftFree wanted (left :: lefts) =
      if (compare (leftKey left) wanted).isLE then
        (if leftFree left ∧ leftKey left = wanted then [left] else []) ++
          reachable compare leftKey leftFree wanted lefts
      else [] := by
  rw [reachable, List.takeWhile_cons]
  by_cases ahead : (compare (leftKey left) wanted).isLE
  · rw [if_pos ahead, if_pos ahead, List.filter_cons]
    split <;> simp_all [reachable]
  · rw [if_neg ahead, if_neg ahead, List.filter_nil]

/-- Where only the second list is sorted, the walk joins of every key the first entries
that it reaches before a greater one, as many as the second list has for them. -/
theorem freshEntries_walk
    (justified : Justified move compare leftKey rightKey leftFree rightFree)
    (level : ∀ left right, move left right = .left → (compare (leftKey left) (rightKey right)).isLE)
    (kept : ∀ left, fresh left left = false)
    (made : ∀ left right, move left right = .both → fresh left (join left right).1 = true)
    (wanted : Key) (lefts : List Left) {rights : List Right}
    (sortedRight : rights.Pairwise fun one two => (compare (rightKey one) (rightKey two)).isLE) :
    freshEntries leftKey fresh wanted lefts (walk move join lefts rights).1 =
      (reachable compare leftKey leftFree wanted lefts).take
        (freeWith rightKey rightFree wanted rights) := by
  fun_induction walk move join lefts rights with
  | case1 rights => simp [freshEntries, reachable]
  | case2 left lefts => simp [freshEntries_self kept, freeWith]
  | case3 left lefts right rights here rest ih =>
    have rejoined := ih sortedRight
    have skipped : freshEntries leftKey fresh wanted (left :: lefts) (left :: rest.1) =
        freshEntries leftKey fresh wanted lefts rest.1 := by simp [freshEntries_cons, kept]
    rw [skipped, rejoined, reachable_cons]
    by_cases ahead : (compare (leftKey left) wanted).isLE
    · rw [if_pos ahead]
      by_cases own : leftFree left ∧ leftKey left = wanted
      · have before := (justified.left left right here).resolve_left (by simp [own.1])
        simp [freeWith_eq_zero sortedRight (own.2 ▸ before)]
      · rw [if_neg own, List.nil_append]
    · have later : compare wanted (rightKey right) = .lt :=
        TransCmp.lt_of_lt_of_isLE (OrientedCmp.lt_of_not_isLE ahead) (level left right here)
      simp [freeWith_eq_zero sortedRight later]
  | case4 left lefts right rights here rest ih =>
    have rejoined := ih sortedRight.of_cons
    rw [rejoined, freeWith_cons]
    by_cases own : rightFree right ∧ rightKey right = wanted
    · have before := (justified.right left right here).resolve_left (by simp [own.1])
      rw [own.2] at before
      have ahead : ¬ (compare (leftKey left) wanted).isLE := OrientedCmp.not_isLE_of_lt before
      rw [reachable_cons, if_neg ahead, List.take_nil, List.take_nil]
    · rw [if_neg own, Nat.add_zero]
  | case5 left lefts right rights here rest ih =>
    obtain ⟨free, unused, same⟩ := justified.both left right here
    have rejoined := ih sortedRight.of_cons
    rw [freshEntries_cons, made left right here, rejoined, reachable_cons, freeWith_cons, ← same]
    by_cases own : leftKey left = wanted
    · subst own
      rw [if_pos ReflCmp.isLE_rfl, if_pos ⟨rfl, rfl⟩, if_pos ⟨unused, rfl⟩, if_pos ⟨free, rfl⟩]
      rfl
    · by_cases ahead : (compare (leftKey left) wanted).isLE
      · simp [own, ahead]
      · have later : compare wanted (rightKey right) = .lt :=
          same ▸ OrientedCmp.lt_of_not_isLE ahead
        have none : freeWith rightKey rightFree wanted (right :: rights) = 0 :=
          freeWith_eq_zero sortedRight later
        have behind : freeWith rightKey rightFree wanted rights = 0 := by
          rw [freeWith_cons] at none
          omega
        simp [own, ahead, behind]

end counts

end Lspd.Sorted
