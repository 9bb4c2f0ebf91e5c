import Mathlib.Data.List.Sort

/-! Pages of rows in the order of a numeric index, as a cursor reads them: the
next page starts right after the index of the last row seen. -/

namespace Lspd.Store

variable {Row : Type} (index : Row → Nat)

/-- The rows from `start` on in ascending order, at most `limit` of them. -/
def page (rows : List Row) (start limit : Nat) : List Row :=
  ((rows.filter (start ≤ index ·)).insertionSort fun one two => index one ≤ index two).take limit

/-- How many rows a cursor at `bound` has behind it. -/
def behind (rows : List Row) (bound : Nat) : Nat := rows.countP (index · < bound)

/-- How many rows a cursor that moves from `start` to `bound` passes. -/
def between (rows : List Row) (start bound : Nat) : Nat :=
  (rows.filter (start ≤ index ·)).countP (index · < bound)

variable {index} {rows : List Row} {start limit bound : Nat} {row final : Row}

private theorem page_append (index : Row → Nat) (rows : List Row) (start limit : Nat) :
    ∃ rest, (page index rows start limit ++ rest).Perm (rows.filter (start ≤ index ·)) ∧
      (page index rows start limit ++ rest).Pairwise (fun one two => index one ≤ index two) ∧
        (rest ≠ [] → limit ≤ (page index rows start limit).length) := by
  let sorted := (rows.filter (start ≤ index ·)).insertionSort fun one two => index one ≤ index two
  have whole : page index rows start limit ++ sorted.drop limit = sorted :=
    List.take_append_drop limit sorted
  have total : Std.Total fun one two : Row => index one ≤ index two :=
    ⟨fun one two => Nat.le_total _ _⟩
  have transitive : IsTrans Row fun one two => index one ≤ index two :=
    ⟨fun _ _ _ => Nat.le_trans⟩
  refine ⟨sorted.drop limit, ?_, ?_, ?_⟩
  · rw [whole]
    exact List.perm_insertionSort _ _
  · rw [whole]
    exact List.pairwise_insertionSort _ _
  · intro more
    have long : limit < sorted.length := by
      by_contra short
      exact more (List.drop_eq_nil_of_le (Nat.le_of_not_lt short))
    exact Nat.le_of_eq (List.length_take_of_le (Nat.le_of_lt long)).symm

theorem mem_of_mem_page (member : row ∈ page index rows start limit) :
    row ∈ rows ∧ start ≤ index row := by
  obtain ⟨rest, perm, _, _⟩ := page_append index rows start limit
  simpa using perm.subset (List.mem_append_left rest member)

/-- The last row of a page has the greatest index. -/
theorem le_last (last : (page index rows start limit).getLast? = some final)
    (member : row ∈ page index rows start limit) : index row ≤ index final := by
  obtain ⟨rest, _, sorted, _⟩ := page_append index rows start limit
  obtain ⟨before, split⟩ := List.getLast?_eq_some_iff.mp last
  have ascending := (List.pairwise_append.mp sorted).1
  rw [split] at ascending member
  rcases List.mem_append.mp member with earlier | same
  · exact (List.pairwise_append.mp ascending).2.2 row earlier final (List.mem_singleton_self _)
  · rw [List.mem_singleton.mp same]

/-- A page with room left holds every row from `start` on. -/
theorem mem_page_of_short (short : (page index rows start limit).length < limit)
    (member : row ∈ rows) (reached : start ≤ index row) : row ∈ page index rows start limit := by
  obtain ⟨rest, perm, _, full⟩ := page_append index rows start limit
  have present : row ∈ page index rows start limit ++ rest :=
    perm.symm.subset (List.mem_filter.mpr ⟨member, by simpa using reached⟩)
  rcases List.mem_append.mp present with here | later
  · exact here
  · exact absurd (full (List.ne_nil_of_mem later)) (Nat.not_le.mpr short)

/-- A page leaves out no row between `start` and its last row. -/
theorem mem_page_of_le_last
    (distinct : ∀ one ∈ rows, ∀ two ∈ rows, index one = index two → one = two)
    (last : (page index rows start limit).getLast? = some final) (member : row ∈ rows)
    (reached : start ≤ index row) (bound : index row ≤ index final) :
    row ∈ page index rows start limit := by
  obtain ⟨rest, perm, sorted, _⟩ := page_append index rows start limit
  have lastMember : final ∈ page index rows start limit := List.mem_of_getLast? last
  have present : row ∈ page index rows start limit ++ rest :=
    perm.symm.subset (List.mem_filter.mpr ⟨member, by simpa using reached⟩)
  rcases List.mem_append.mp present with here | later
  · exact here
  · have above := (List.pairwise_append.mp sorted).2.2 final lastMember row later
    have same := distinct row member final (mem_of_mem_page lastMember).1 (Nat.le_antisymm bound above)
    exact same ▸ lastMember

/-- A full page ends below `bound` exactly when the rows below it fill the page. -/
theorem last_lt_iff (last : (page index rows start limit).getLast? = some final)
    (full : (page index rows start limit).length = limit) :
    index final < bound ↔ limit ≤ between index rows start bound := by
  obtain ⟨rest, perm, sorted, _⟩ := page_append index rows start limit
  have counted : between index rows start bound =
      (page index rows start limit).countP (index · < bound) + rest.countP (index · < bound) := by
    rw [between, ← perm.countP_eq, List.countP_append]
  constructor
  · intro below
    have all : (page index rows start limit).countP (index · < bound) = limit := by
      rw [List.countP_eq_length.mpr, full]
      intro row member
      simpa using Nat.lt_of_le_of_lt (le_last last member) below
    omega
  · intro enough
    by_contra beyond
    have none : rest.countP (index · < bound) = 0 := by
      rw [List.countP_eq_zero]
      intro row member
      have above := (List.pairwise_append.mp sorted).2.2 final (List.mem_of_getLast? last) row member
      simpa using Nat.le_trans (Nat.le_of_not_lt beyond) above
    have all : (page index rows start limit).countP (index · < bound) =
        (page index rows start limit).length := by
      refine Nat.le_antisymm List.countP_le_length ?_
      omega
    have below := List.countP_eq_length.mp all final (List.mem_of_getLast? last)
    exact beyond (by simpa using below)

/-- A page is full when enough rows are left. -/
theorem length_page_of_between (enough : limit ≤ between index rows start bound) :
    (page index rows start limit).length = limit := by
  have rows_left := Nat.le_trans enough List.countP_le_length
  rw [page, List.length_take_of_le]
  rwa [List.length_insertionSort]

private theorem behind_split (within : start ≤ limit) : behind index rows limit =
    behind index rows start + between index rows start limit := by
  unfold behind between
  induction rows with
  | nil => rfl
  | cons first rest ih =>
    rw [List.countP_cons, List.countP_cons, List.filter_cons, ih]
    by_cases early : index first < start
    · have first_within : index first < limit := Nat.lt_of_lt_of_le early within
      simp [early, first_within, Nat.not_le.mpr early]
      omega
    · simp [early, Nat.le_of_not_lt early, List.countP_cons]
      omega

/-- Moving the cursor past a page leaves the rows of the page behind it. -/
theorem behind_page (last : (page index rows start limit).getLast? = some final) :
    behind index rows start + (page index rows start limit).length ≤
      behind index rows (index final + 1) := by
  obtain ⟨rest, perm, _, _⟩ := page_append index rows start limit
  have counted : (page index rows start limit).countP (index · < index final + 1) =
      (page index rows start limit).length := by
    rw [List.countP_eq_length]
    intro row member
    simpa using Nat.lt_succ_of_le (le_last last member)
  have reached : start ≤ index final + 1 :=
    Nat.le_succ_of_le (mem_of_mem_page (List.mem_of_getLast? last)).2
  rw [behind_split reached, between, ← counted, ← perm.countP_eq]
  exact Nat.add_le_add_left (List.sublist_append_left _ rest).countP_le _

end Lspd.Store
