import Lspd.Sorted.Matching

/-! The walk over two lists of which neither has to be sorted. What it joins can be told
from the lists: the first two entries with one key that exceed everything before them, and
so on behind these. -/

namespace Lspd.Sorted

open Std

variable {Left Right Key : Type} (move : Left → Right → Move) (join : Left → Right → Left × Right)

section entries

variable {move}

/-- The first list after the walk has the joined entries and those passed over. -/
theorem perm_walk_fst (lefts : List Left) (rights : List Right) :
    (walk move join lefts rights).1.Perm
      ((trace move lefts rights).joined.map (fun pair => (join pair.1 pair.2).1) ++
        (trace move lefts rights).lefts) := by
  fun_induction walk move join lefts rights with
  | case1 rights => simp [trace]
  | case2 left lefts => simp [trace]
  | case3 left lefts right rights here rest ih =>
    rw [trace, here]
    exact (ih.cons left).trans List.perm_middle.symm
  | case4 left lefts right rights here rest ih =>
    rw [trace, here]
    exact ih
  | case5 left lefts right rights here rest ih =>
    rw [trace, here]
    exact ih.cons _

theorem perm_walk_snd (lefts : List Left) (rights : List Right) :
    (walk move join lefts rights).2.Perm
      ((trace move lefts rights).joined.map (fun pair => (join pair.1 pair.2).2) ++
        (trace move lefts rights).rights) := by
  fun_induction walk move join lefts rights with
  | case1 rights => simp [trace]
  | case2 left lefts => simp [trace]
  | case3 left lefts right rights here rest ih =>
    rw [trace, here]
    exact ih
  | case4 left lefts right rights here rest ih =>
    rw [trace, here]
    exact (ih.cons right).trans List.perm_middle.symm
  | case5 left lefts right rights here rest ih =>
    rw [trace, here]
    exact ih.cons _

/-- Joining without a change leaves the lists as they are. -/
theorem walk_mk (lefts : List Left) (rights : List Right) :
    walk move Prod.mk lefts rights = (lefts, rights) := by
  fun_induction walk move Prod.mk lefts rights with
  | case1 rights => rfl
  | case2 left lefts => rfl
  | case3 left lefts right rights here rest ih => simp [rest, ih]
  | case4 left lefts right rights here rest ih => simp [rest, ih]
  | case5 left lefts right rights here rest ih => simp [rest, ih]

theorem perm_lefts (lefts : List Left) (rights : List Right) :
    lefts.Perm ((trace move lefts rights).joined.map Prod.fst ++
      (trace move lefts rights).lefts) := by
  have perm := @perm_walk_fst _ _ move Prod.mk lefts rights
  rwa [walk_mk] at perm

theorem perm_rights (lefts : List Left) (rights : List Right) :
    rights.Perm ((trace move lefts rights).joined.map Prod.snd ++
      (trace move lefts rights).rights) := by
  have perm := @perm_walk_snd _ _ move Prod.mk lefts rights
  rwa [walk_mk] at perm

end entries

section counts

variable {Class : Type} [DecidableEq Class] {leftClass : Left → Class} {rightClass : Right → Class}

/-- As many entries of each class are joined as there can be, if and only if no class has
entries on both sides that are passed over. -/
theorem joined_maximal_iff {lefts : List Left} {rights : List Right} {cut : Trace Left Right}
    (permLefts : lefts.Perm (cut.joined.map Prod.fst ++ cut.lefts))
    (permRights : rights.Perm (cut.joined.map Prod.snd ++ cut.rights))
    (same : ∀ pair ∈ cut.joined, leftClass pair.1 = rightClass pair.2) :
    (∀ wanted, (cut.joined.countP fun pair => leftClass pair.1 = wanted) =
      min (lefts.countP fun left => leftClass left = wanted)
        (rights.countP fun right => rightClass right = wanted)) ↔
    ∀ left ∈ cut.lefts, ∀ right ∈ cut.rights, leftClass left ≠ rightClass right := by
  have countLefts (wanted : Class) : (lefts.countP fun left => leftClass left = wanted) =
      (cut.joined.countP fun pair => leftClass pair.1 = wanted) +
        cut.lefts.countP fun left => leftClass left = wanted := by
    rw [permLefts.countP_eq, List.countP_append, List.countP_map]
    rfl
  have countRights (wanted : Class) : (rights.countP fun right => rightClass right = wanted) =
      (cut.joined.countP fun pair => leftClass pair.1 = wanted) +
        cut.rights.countP fun right => rightClass right = wanted := by
    rw [permRights.countP_eq, List.countP_append, List.countP_map]
    congr 1
    refine List.countP_congr fun pair member => ?_
    simp [same pair member]
  simp only [countLefts, countRights]
  constructor
  · intro maximal left inLefts right inRights equal
    have someLeft : 0 < cut.lefts.countP fun left => leftClass left = rightClass right :=
      List.countP_pos_iff.mpr ⟨left, inLefts, by simpa using equal⟩
    have someRight : 0 < cut.rights.countP fun other => rightClass other = rightClass right :=
      List.countP_pos_iff.mpr ⟨right, inRights, by simp⟩
    have bound := maximal (rightClass right)
    omega
  · intro apart wanted
    have none : (cut.lefts.countP fun left => leftClass left = wanted) = 0 ∨
        (cut.rights.countP fun right => rightClass right = wanted) = 0 := by
      by_contra some
      obtain ⟨someLeft, someRight⟩ := not_or.mp some
      obtain ⟨left, inLefts, own⟩ := List.countP_pos_iff.mp (Nat.pos_of_ne_zero someLeft)
      obtain ⟨right, inRights, other⟩ := List.countP_pos_iff.mp (Nat.pos_of_ne_zero someRight)
      refine apart left inLefts right inRights ?_
      rw [of_decide_eq_true own, of_decide_eq_true other]
    omega

end counts

section leaders

variable (compare : Key → Key → Ordering) (leftKey : Left → Key) (rightKey : Right → Key)

/-- Two entries with one key that exceed everything before them. -/
structure Level (before : List Left) (left : Left) (earlier : List Right) (right : Right) :
    Prop where
  same : leftKey left = rightKey right
  lefts : ∀ entry ∈ before, compare (leftKey entry) (leftKey left) = .lt
  rights : ∀ entry ∈ earlier, compare (rightKey entry) (rightKey right) = .lt

def NoLevel (lefts : List Left) (rights : List Right) : Prop :=
  ∀ before left after earlier right later, lefts = before ++ left :: after →
    rights = earlier ++ right :: later →
    ¬ Level compare leftKey rightKey before left earlier right

/-- The first two entries that are level are joined, and so on behind them. -/
inductive Abreast : List Left → List Right → Trace Left Right → Prop where
  | apart {lefts : List Left} {rights : List Right}
      (none : NoLevel compare leftKey rightKey lefts rights) :
      Abreast lefts rights ⟨[], lefts, rights⟩
  | level {before after : List Left} {left : Left} {earlier later : List Right} {right : Right}
      {rest : Trace Left Right} (here : Level compare leftKey rightKey before left earlier right)
      (first : NoLevel compare leftKey rightKey before earlier) (behind : Abreast after later rest) :
      Abreast (before ++ left :: after) (earlier ++ right :: later)
        ⟨(left, right) :: rest.joined, before ++ rest.lefts, earlier ++ rest.rights⟩

/-- Both lists can be cut that way. -/
theorem exists_abreast (lefts : List Left) (rights : List Right) :
    ∃ cut, Abreast compare leftKey rightKey lefts rights cut := by
  induction size : lefts.length using Nat.strong_induction_on generalizing lefts rights with
  | h length ih =>
    by_cases none : NoLevel compare leftKey rightKey lefts rights
    · exact ⟨_, .apart none⟩
    · -- of all level entries take those with the fewest entries before them
      have levels : ∃ count before left after earlier right later, before.length = count ∧
          lefts = before ++ left :: after ∧ rights = earlier ++ right :: later ∧
          Level compare leftKey rightKey before left earlier right := by
        simpa [NoLevel] using none
      classical
      obtain ⟨before, left, after, earlier, right, later, count, rfl, rfl, here⟩ :=
        Nat.find_spec levels
      have first : NoLevel compare leftKey rightKey before earlier := by
        rintro b x a c y d rfl rfl nearer
        have fewer : b.length < Nat.find levels := by
          rw [← count]
          simp
        exact Nat.find_min levels fewer ⟨b, x, a ++ left :: after, c, y, d ++ right :: later, rfl,
          by simp, by simp, nearer⟩
      obtain ⟨rest, behind⟩ := ih after.length (by simp at size; omega) after later rfl
      exact ⟨_, .level here first behind⟩

variable {compare leftKey rightKey move}

theorem Abreast.same {lefts : List Left} {rights : List Right} {cut : Trace Left Right}
    (abreast : Abreast compare leftKey rightKey lefts rights cut) :
    ∀ pair ∈ cut.joined, leftKey pair.1 = rightKey pair.2 := by
  induction abreast with
  | apart => exact List.forall_mem_nil _
  | level here _ _ ih => exact List.forall_mem_cons.mpr ⟨here.same, ih⟩

/-- The cursor at the smaller key moves on, and equal keys are joined. -/
def moveOf : Ordering → Move
  | .lt => .left
  | .gt => .right
  | .eq => .both

theorem NoLevel.dropLeft [TransCmp compare] {left : Left} {lefts : List Left} {right : Right}
    {rights : List Right}
    (none : NoLevel compare leftKey rightKey (left :: lefts) (right :: rights))
    (less : compare (leftKey left) (rightKey right) = .lt) :
    NoLevel compare leftKey rightKey lefts (right :: rights) := by
  rintro before one after earlier two later rfl split level
  refine none (left :: before) one after earlier two later rfl split ⟨level.same, ?_, level.rights⟩
  -- the level entry of the second list is the first one or exceeds it
  have above : (compare (rightKey right) (rightKey two)).isLE := by
    cases earlier with
    | nil =>
      obtain ⟨rfl, _⟩ := List.cons.inj split
      exact ReflCmp.isLE_rfl
    | cons head rest =>
      obtain ⟨rfl, _⟩ := List.cons.inj split
      rw [level.rights right List.mem_cons_self]
      rfl
  rw [List.forall_mem_cons, level.same]
  refine ⟨TransCmp.lt_of_lt_of_isLE less above, ?_⟩
  rw [← level.same]
  exact level.lefts

theorem NoLevel.swap {lefts : List Left} {rights : List Right}
    (none : NoLevel compare leftKey rightKey lefts rights) :
    NoLevel compare rightKey leftKey rights lefts := fun earlier right later before left after
      splitRight splitLeft level =>
  none before left after earlier right later splitLeft splitRight
    ⟨level.same.symm, level.rights, level.lefts⟩

theorem NoLevel.dropRight [TransCmp compare] {left : Left} {lefts : List Left} {right : Right}
    {rights : List Right}
    (none : NoLevel compare leftKey rightKey (left :: lefts) (right :: rights))
    (less : compare (rightKey right) (leftKey left) = .lt) :
    NoLevel compare leftKey rightKey (left :: lefts) rights :=
  (none.swap.dropLeft less).swap

theorem NoLevel.heads {left : Left} {lefts : List Left} {right : Right} {rights : List Right}
    (none : NoLevel compare leftKey rightKey (left :: lefts) (right :: rights)) :
    leftKey left ≠ rightKey right := fun same =>
  none [] left lefts [] right rights rfl rfl
    ⟨same, List.forall_mem_nil _, List.forall_mem_nil _⟩

section moves

variable {left : Left} {right : Right}
  (follows : ∀ right, move left right = moveOf (compare (leftKey left) (rightKey right)))
include follows

theorem move_left_iff : move left right = .left ↔ compare (leftKey left) (rightKey right) = .lt := by
  rw [follows]
  cases compare (leftKey left) (rightKey right) <;> simp [moveOf]

theorem move_right_iff [TransCmp compare] :
    move left right = .right ↔ compare (rightKey right) (leftKey left) = .lt := by
  rw [follows, ← OrientedCmp.gt_iff_lt]
  cases compare (leftKey left) (rightKey right) <;> simp [moveOf]

theorem move_both_iff [LawfulEqCmp compare] :
    move left right = .both ↔ leftKey left = rightKey right := by
  rw [follows]
  constructor
  · intro both
    cases keys : compare (leftKey left) (rightKey right) with
    | eq => exact LawfulEqCmp.eq_of_compare keys
    | lt => simp [keys, moveOf] at both
    | gt => simp [keys, moveOf] at both
  · intro same
    have equal : compare (leftKey left) (rightKey right) = .eq := same ▸ ReflCmp.compare_self
    rw [equal]
    rfl

end moves

/-- What the cursors pass when nothing is level. -/
theorem trace_apart [TransCmp compare] [LawfulEqCmp compare] {lefts : List Left} {rights : List Right}
    (follows : ∀ left ∈ lefts, ∀ right,
      move left right = moveOf (compare (leftKey left) (rightKey right)))
    (none : NoLevel compare leftKey rightKey lefts rights) :
    trace move lefts rights = ⟨[], lefts, rights⟩ := by
  fun_induction trace move lefts rights with
  | case1 rights => rfl
  | case2 left lefts => rfl
  | case3 left lefts right rights here rest ih =>
    obtain ⟨first, others⟩ := List.forall_mem_cons.mp follows
    have passed := ih others (none.dropLeft ((move_left_iff first).mp here))
    simp only [rest, passed]
  | case4 left lefts right rights here rest ih =>
    obtain ⟨first, _⟩ := List.forall_mem_cons.mp follows
    have passed := ih follows (none.dropRight ((move_right_iff first).mp here))
    simp only [rest, passed]
  | case5 left lefts right rights here rest ih =>
    obtain ⟨first, _⟩ := List.forall_mem_cons.mp follows
    exact absurd ((move_both_iff first).mp here) none.heads

/-- Entries of the first list in front of a greater one of the second. -/
theorem trace_passLefts {before lefts : List Left} {right : Right} {rights : List Right}
    (follows : ∀ left ∈ before, ∀ right,
      move left right = moveOf (compare (leftKey left) (rightKey right)))
    (less : ∀ left ∈ before, compare (leftKey left) (rightKey right) = .lt) :
    trace move (before ++ lefts) (right :: rights) =
      { trace move lefts (right :: rights) with
        lefts := before ++ (trace move lefts (right :: rights)).lefts } := by
  induction before with
  | nil => rfl
  | cons left before ih =>
    obtain ⟨first, others⟩ := List.forall_mem_cons.mp follows
    obtain ⟨lessFirst, lessOthers⟩ := List.forall_mem_cons.mp less
    rw [List.cons_append, trace, (move_left_iff first).mpr lessFirst]
    simp only [ih others lessOthers, List.cons_append]

theorem trace_passRights [TransCmp compare] {left : Left} {lefts : List Left}
    {earlier rights : List Right}
    (follows : ∀ right, move left right = moveOf (compare (leftKey left) (rightKey right)))
    (less : ∀ right ∈ earlier, compare (rightKey right) (leftKey left) = .lt) :
    trace move (left :: lefts) (earlier ++ rights) =
      { trace move (left :: lefts) rights with
        rights := earlier ++ (trace move (left :: lefts) rights).rights } := by
  induction earlier with
  | nil => rfl
  | cons right earlier ih =>
    obtain ⟨lessFirst, lessOthers⟩ := List.forall_mem_cons.mp less
    rw [List.cons_append, trace, (move_right_iff follows).mpr lessFirst]
    simp only [ih lessOthers, List.cons_append]

/-- The walk comes to the first two entries that are level and joins them. -/
theorem trace_level [TransCmp compare] [LawfulEqCmp compare] {before after : List Left}
    {left : Left} {earlier later : List Right} {right : Right}
    (follows : ∀ entry ∈ before ++ left :: after, ∀ right,
      move entry right = moveOf (compare (leftKey entry) (rightKey right)))
    (here : Level compare leftKey rightKey before left earlier right)
    (first : NoLevel compare leftKey rightKey before earlier) :
    trace move (before ++ left :: after) (earlier ++ right :: later) =
      ⟨(left, right) :: (trace move after later).joined, before ++ (trace move after later).lefts,
        earlier ++ (trace move after later).rights⟩ := by
  have own := follows left (by simp)
  have joined : trace move (left :: after) (right :: later) =
      { trace move after later with
        joined := (left, right) :: (trace move after later).joined } := by
    rw [trace, (move_both_iff own).mpr here.same]
  induction before, earlier using trace.induct move with
  | case1 earlier =>
    rw [List.nil_append, trace_passRights own (by simpa [here.same] using here.rights), joined]
    rfl
  | case2 entry before =>
    have passed := (List.forall_mem_append.mp follows).1
    rw [List.nil_append, trace_passLefts passed (by simpa [here.same] using here.lefts), joined]
    rfl
  | case3 entry before other earlier turn ih =>
    obtain ⟨now, others⟩ := List.forall_mem_cons.mp follows
    have reached := ih others ⟨here.same, (List.forall_mem_cons.mp here.lefts).2, here.rights⟩
      (first.dropLeft ((move_left_iff now).mp turn))
    rw [List.cons_append] at reached
    rw [List.cons_append, List.cons_append, trace, turn]
    simp only [reached, List.cons_append]
  | case4 entry before other earlier turn ih =>
    have now := follows entry List.mem_cons_self
    have reached := ih follows ⟨here.same, here.lefts, (List.forall_mem_cons.mp here.rights).2⟩
      (first.dropRight ((move_right_iff now).mp turn))
    rw [List.cons_append] at reached
    rw [List.cons_append, List.cons_append, trace, turn]
    simp only [reached, List.cons_append]
  | case5 entry before other earlier turn ih =>
    have now := follows entry List.mem_cons_self
    exact absurd ((move_both_iff now).mp turn) first.heads

/-- The entries the walk joins and passes are those of the cut lists. -/
theorem Abreast.trace_eq [TransCmp compare] [LawfulEqCmp compare] {lefts : List Left}
    {rights : List Right} {cut : Trace Left Right}
    (abreast : Abreast compare leftKey rightKey lefts rights cut)
    (follows : ∀ left ∈ lefts, ∀ right,
      move left right = moveOf (compare (leftKey left) (rightKey right))) :
    trace move lefts rights = cut := by
  induction abreast with
  | apart none => exact trace_apart follows none
  | level here first _ ih =>
    have behind := (List.forall_mem_cons.mp (List.forall_mem_append.mp follows).2).2
    rw [trace_level follows here first, ih behind]

end leaders

end Lspd.Sorted
