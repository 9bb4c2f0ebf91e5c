import Mathlib.Data.List.Basic

/-! Tables with one unique key, under the row commands the stores issue:
`INSERT ... ON CONFLICT DO NOTHING`, `INSERT ... ON CONFLICT DO UPDATE`,
`UPDATE ... WHERE key = ..` and `DELETE`. The unique constraint is a field of the
table. -/

namespace Lspd.Store

variable {Row Key : Type} [DecidableEq Key] {key : Row → Key}

structure Table (Row : Type) {Key : Type} (key : Row → Key) where
  rows : List Row
  unique : rows.Pairwise (fun one two => key one ≠ key two)

namespace Table

def empty : Table Row key := ⟨[], .nil⟩

def find? (table : Table Row key) (wanted : Key) : Option Row :=
  table.rows.find? (fun row => key row = wanted)

theorem find?_eq_some_iff {table : Table Row key} {wanted : Key} {row : Row} :
    table.find? wanted = some row ↔ row ∈ table.rows ∧ key row = wanted := by
  obtain ⟨rows, unique⟩ := table
  simp only [find?]
  constructor
  · intro found
    exact ⟨List.mem_of_find?_eq_some found, by simpa using List.find?_some found⟩
  · rintro ⟨member, same⟩
    induction rows with
    | nil => simp at member
    | cons first rest ih =>
      rw [List.pairwise_cons] at unique
      rcases List.mem_cons.mp member with rfl | later
      · simp [same]
      · have different : key first ≠ wanted := same ▸ unique.1 row later
        simpa [different] using ih unique.2 later

omit [DecidableEq Key] in
theorem eq_of_rows {one two : Table Row key} (same : one.rows = two.rows) : one = two := by
  cases one
  cases two
  cases same
  rfl

/-- Two rows under one key are the same row. -/
theorem eq_of_key_eq {table : Table Row key} {one two : Row} (first : one ∈ table.rows)
    (second : two ∈ table.rows) (same : key one = key two) : one = two := by
  have found := find?_eq_some_iff.mpr ⟨first, same⟩
  rw [find?_eq_some_iff.mpr ⟨second, rfl⟩] at found
  exact (Option.some.inj found).symm

theorem find?_eq_none_iff {table : Table Row key} {wanted : Key} :
    table.find? wanted = none ↔ ∀ row ∈ table.rows, key row ≠ wanted := by
  simp [find?, List.find?_eq_none]

/-- There is exactly one row under the key of a row that was found. -/
theorem filter_key {table : Table Row key} {wanted : Key} {row : Row}
    (found : table.find? wanted = some row) :
    table.rows.filter (fun other => key other = wanted) = [row] := by
  obtain ⟨member, same⟩ := find?_eq_some_iff.mp found
  obtain ⟨before, after, split⟩ := List.append_of_mem member
  have unique := split ▸ table.unique
  rw [List.pairwise_append, List.pairwise_cons] at unique
  obtain ⟨_, ⟨later, _⟩, earlier⟩ := unique
  rw [split, List.filter_append, List.filter_cons_of_pos (by simpa using same),
    List.filter_eq_nil_iff.mpr, List.filter_eq_nil_iff.mpr, List.nil_append]
  · intro other present
    simpa using fun equal => later other present (same.trans equal.symm)
  · intro other present
    simpa using fun equal => earlier other present row List.mem_cons_self (equal.trans same.symm)

/-- `INSERT ... ON CONFLICT (key) DO NOTHING`. -/
def insertNew (table : Table Row key) (row : Row) : Table Row key :=
  if vacant : ∀ other ∈ table.rows, key other ≠ key row then
    ⟨table.rows ++ [row], by
      refine List.pairwise_append.mpr ⟨table.unique, List.pairwise_singleton _ _, ?_⟩
      intro other member added same
      rw [List.mem_singleton.mp same]
      exact vacant other member⟩
  else table

theorem rows_insertNew {table : Table Row key} {row : Row}
    (vacant : ∀ other ∈ table.rows, key other ≠ key row) :
    (table.insertNew row).rows = table.rows ++ [row] := by
  rw [insertNew, dif_pos vacant]

theorem find?_insertNew (table : Table Row key) (row : Row) (wanted : Key) :
    (table.insertNew row).find? wanted =
      (table.find? wanted).or (if key row = wanted then some row else none) := by
  unfold insertNew
  split
  · simp only [find?, List.find?_append, List.find?_singleton, decide_eq_true_eq]
  · rename_i taken
    by_cases same : key row = wanted
    · cases found : table.find? wanted with
      | none => exact absurd (find?_eq_none_iff.mp found) (by simpa [same] using taken)
      | some other => simp
    · simp [same]

theorem find?_inserts_of_some {table : Table Row key} {wanted : Key} {row : Row}
    (found : table.find? wanted = some row) (rows : List Row) :
    (rows.foldl insertNew table).find? wanted = some row := by
  induction rows generalizing table with
  | nil => exact found
  | cons first rest ih =>
    apply ih
    rw [find?_insertNew, found, Option.some_or]

/-- A table that gets rows has some row under the key of each. -/
theorem exists_find?_inserts {rows : List Row} {row : Row} (member : row ∈ rows)
    (table : Table Row key) : ∃ found, (rows.foldl insertNew table).find? (key row) = some found := by
  induction rows generalizing table with
  | nil => exact absurd member List.not_mem_nil
  | cons first rest ih =>
    rcases List.mem_cons.mp member with rfl | later
    · cases found : table.find? (key row) with
      | some old => exact ⟨old, find?_inserts_of_some found (row :: rest)⟩
      | none =>
        refine ⟨row, find?_inserts_of_some ?_ rest⟩
        rw [find?_insertNew, found, Option.none_or, if_pos rfl]
    · exact ih later _

theorem mem_insertNew_of_mem {table : Table Row key} {row : Row} (new : Row)
    (member : row ∈ table.rows) : row ∈ (table.insertNew new).rows := by
  unfold insertNew
  split
  · exact List.mem_append_left _ member
  · exact member

theorem mem_insertNew {table : Table Row key} {new : Row}
    (vacant : ∀ other ∈ table.rows, key other ≠ key new) : new ∈ (table.insertNew new).rows := by
  simp only [insertNew, dif_pos vacant, List.mem_append, List.mem_singleton, or_true]

theorem mem_of_mem_insertNew {table : Table Row key} {row new : Row}
    (member : row ∈ (table.insertNew new).rows) : row ∈ table.rows ∨ row = new := by
  unfold insertNew at member
  split at member
  · simpa using member
  · exact .inl member

theorem mem_of_mem_inserts {rows : List Row} {table : Table Row key} {row : Row}
    (member : row ∈ (rows.foldl insertNew table).rows) : row ∈ table.rows ∨ row ∈ rows := by
  induction rows generalizing table with
  | nil => exact .inl member
  | cons first rest ih =>
    rcases ih member with old | later
    · rcases mem_of_mem_insertNew old with older | rfl
      · exact .inl older
      · exact .inr List.mem_cons_self
    · exact .inr (List.mem_cons_of_mem _ later)

/-- `UPDATE ... SET .. WHERE key = target`; the key column is not written. -/
def modify (table : Table Row key) (target : Key) (change : Row → Row)
    (keeps : ∀ row, key (change row) = key row) : Table Row key where
  rows := table.rows.map fun row => if key row = target then change row else row
  unique := by
    rw [List.pairwise_map]
    apply table.unique.imp
    intro one two different
    have same (row : Row) : key (if key row = target then change row else row) = key row := by
      split
      · exact keeps row
      · rfl
    rwa [same, same]

theorem mem_modify {table : Table Row key} {target : Key} {change : Row → Row}
    {keeps : ∀ row, key (change row) = key row} {row : Row} :
    row ∈ (table.modify target change keeps).rows ↔
      ∃ old ∈ table.rows, (if key old = target then change old else old) = row :=
  List.mem_map

theorem find?_modify (table : Table Row key) (target wanted : Key) (change : Row → Row)
    (keeps : ∀ row, key (change row) = key row) :
    (table.modify target change keeps).find? wanted =
      (table.find? wanted).map fun row => if wanted = target then change row else row := by
  cases found : table.find? wanted with
  | none =>
    rw [Option.map_none, find?_eq_none_iff]
    intro row member
    obtain ⟨old, present, rfl⟩ := List.mem_map.mp member
    have absent := find?_eq_none_iff.mp found old present
    split
    · rwa [keeps]
    · exact absent
  | some row =>
    obtain ⟨member, same⟩ := find?_eq_some_iff.mp found
    rw [Option.map_some, find?_eq_some_iff]
    refine ⟨List.mem_map.mpr ⟨row, member, by rw [same]⟩, ?_⟩
    split
    · rw [keeps, same]
    · exact same

/-- `INSERT ... ON CONFLICT (key) DO UPDATE`, where `merge old new` is the row
the update leaves. -/
def upsert (table : Table Row key) (row : Row) (merge : Row → Row → Row)
    (keeps : ∀ old new, key (merge old new) = key old) : Table Row key :=
  (table.modify (key row) (merge · row) (keeps · row)).insertNew row

theorem find?_upsert (table : Table Row key) (row : Row) (merge : Row → Row → Row)
    (keeps : ∀ old new, key (merge old new) = key old) (wanted : Key) :
    (table.upsert row merge keeps).find? wanted =
      if wanted = key row then some ((table.find? wanted).elim row (merge · row))
      else table.find? wanted := by
  rw [upsert, find?_insertNew, find?_modify]
  by_cases same : wanted = key row
  · cases found : table.find? wanted <;> simp [same]
  · have different : key row ≠ wanted := fun h => same h.symm
    cases found : table.find? wanted <;> simp [same, different]

section Batch

variable (merge : Row → Row → Row) (keeps : ∀ old new, key (merge old new) = key old)

/-- Rows under other keys stay as they are. -/
theorem find?_upserts_of_not_mem {rows : List Row} {wanted : Key}
    (absent : ∀ row ∈ rows, key row ≠ wanted) (table : Table Row key) :
    (rows.foldl (fun table row => table.upsert row merge keeps) table).find? wanted =
      table.find? wanted := by
  induction rows generalizing table with
  | nil => rfl
  | cons row rest ih =>
    have other : wanted ≠ key row := fun same => absent row List.mem_cons_self same.symm
    rw [List.foldl_cons, ih (fun row member => absent row (List.mem_cons_of_mem _ member)),
      find?_upsert, if_neg other]

/-- Each new row is put in, or merged into the row that was there. -/
theorem find?_upserts {rows : List Row} (distinct : rows.Pairwise fun one two => key one ≠ key two)
    {row : Row} (member : row ∈ rows) (table : Table Row key) :
    (rows.foldl (fun table row => table.upsert row merge keeps) table).find? (key row) =
      some ((table.find? (key row)).elim row (merge · row)) := by
  induction rows generalizing table with
  | nil => exact absurd member List.not_mem_nil
  | cons first rest ih =>
    rw [List.pairwise_cons] at distinct
    rw [List.foldl_cons]
    rcases List.mem_cons.mp member with same | later
    · subst same
      rw [find?_upserts_of_not_mem merge keeps
        (fun other present => (distinct.1 other present).symm), find?_upsert, if_pos rfl]
    · rw [ih distinct.2 later, find?_upsert, if_neg (distinct.1 row later).symm]

/-- Where an update replaces the whole row, each new row is in the table afterwards. -/
theorem find?_upserts_of_mem (replaces : ∀ old new, key old = key new → merge old new = new)
    {rows : List Row} (distinct : rows.Pairwise fun one two => key one ≠ key two) {row : Row}
    (member : row ∈ rows) (table : Table Row key) :
    (rows.foldl (fun table row => table.upsert row merge keeps) table).find? (key row) =
      some row := by
  rw [find?_upserts merge keeps distinct member]
  cases found : table.find? (key row) with
  | none => rfl
  | some old => rw [Option.elim_some, replaces old row (find?_eq_some_iff.mp found).2]

end Batch

/-- Other rows under the same keys, in the same order. -/
def rewrite (table : Table Row key) (rows : List Row) (same : rows.map key = table.rows.map key) :
    Table Row key where
  rows := rows
  unique := by
    have keys := List.pairwise_map.mpr table.unique
    rw [← same] at keys
    exact List.pairwise_map.mp keys

/-- Put a row under its key: in place of the old one, or at the end. -/
def set (table : Table Row key) (row : Row) : Table Row key :=
  (table.rewrite (table.rows.map fun old => if key old = key row then row else old) (by
    rw [List.map_map]
    apply List.map_congr_left
    intro old _
    dsimp only [Function.comp]
    split
    · rename_i same
      exact same.symm
    · rfl)).insertNew row

def delete (table : Table Row key) (target : Key) : Table Row key where
  rows := table.rows.filter fun row => key row ≠ target
  unique := table.unique.filter _

theorem rows_set {table : Table Row key} {row : Row}
    (vacant : ∀ old ∈ table.rows, key old ≠ key row) :
    (table.set row).rows = table.rows ++ [row] := by
  have unchanged : (table.rows.map fun old => if key old = key row then row else old) =
      table.rows := by
    conv_rhs => rw [← List.map_id table.rows]
    apply List.map_congr_left
    intro old member
    rw [if_neg (vacant old member), id]
  unfold set insertNew rewrite
  simp only [unchanged, dif_pos vacant]

theorem mem_of_mem_set {table : Table Row key} {row stored : Row}
    (member : stored ∈ (table.set row).rows) : stored ∈ table.rows ∨ stored = row := by
  rcases mem_of_mem_insertNew member with kept | new
  · obtain ⟨old, present, rfl⟩ := List.mem_map.mp kept
    split_ifs
    · exact .inr rfl
    · exact .inl present
  · exact .inr new

theorem rows_delete (table : Table Row key) (target : Key) :
    (table.delete target).rows = table.rows.filter fun row => key row ≠ target := rfl

theorem mem_delete {table : Table Row key} {target : Key} {row : Row} :
    row ∈ (table.delete target).rows ↔ row ∈ table.rows ∧ key row ≠ target := by
  simp [rows_delete]

/-- `DELETE ... WHERE` another condition than on the key. -/
def filter (table : Table Row key) (keep : Row → Bool) : Table Row key where
  rows := table.rows.filter keep
  unique := table.unique.filter _

theorem find?_filter (table : Table Row key) (keep : Row → Bool) (wanted : Key) :
    (table.filter keep).find? wanted = (table.find? wanted).filter keep := by
  apply Option.ext
  intro row
  rw [Option.filter_eq_some_iff, find?_eq_some_iff, find?_eq_some_iff, filter, List.mem_filter]
  exact and_right_comm

theorem find?_delete (table : Table Row key) (target wanted : Key) :
    (table.delete target).find? wanted = if wanted = target then none else table.find? wanted := by
  split
  · rename_i same
    rw [find?_eq_none_iff, same]
    intro row member
    exact (mem_delete.mp member).2
  · rename_i different
    apply Option.ext
    intro row
    rw [find?_eq_some_iff, find?_eq_some_iff, mem_delete]
    constructor
    · rintro ⟨⟨member, _⟩, found⟩
      exact ⟨member, found⟩
    · rintro ⟨member, rfl⟩
      exact ⟨⟨member, different⟩, rfl⟩

/-- Adding a new row and taking it out again changes nothing. -/
theorem rows_delete_set {table : Table Row key} {row : Row}
    (vacant : ∀ old ∈ table.rows, key old ≠ key row) :
    ((table.set row).delete (key row)).rows = table.rows := by
  rw [rows_delete, rows_set vacant, List.filter_append,
    List.filter_eq_self.mpr (by simpa using vacant)]
  simp

end Table

end Lspd.Store
