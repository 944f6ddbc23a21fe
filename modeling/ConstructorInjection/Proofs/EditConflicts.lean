import Mathlib.Data.List.Permutation
import Mathlib.Tactic.Common
import ConstructorInjection.Edit

/-!
Which edits of a batch get into each other's way. Only neighbours in the sorted batch are compared;
this finds an overlap exactly when two of the recorded edits overlap.
-/

namespace ConstructorInjection

/-- Two ranges overlap when they share an index, or when one of them is empty and marks a place
strictly inside the other one. Two empty ranges never do. -/
inductive IndexRange.Overlap (left right : IndexRange) : Prop where
  | shared (index : Nat) (inLeft : left.start ≤ index ∧ index < left.stop)
      (inRight : right.start ≤ index ∧ index < right.stop)
  | leftInside (isEmpty : left.start = left.stop)
      (inside : right.start < left.start ∧ left.start < right.stop)
  | rightInside (isEmpty : right.start = right.stop)
      (inside : left.start < right.start ∧ right.start < left.stop)

namespace IndexRange

variable {left right : IndexRange}

theorem Overlap.symm (overlap : left.Overlap right) : right.Overlap left := by
  cases overlap with
  | shared index inLeft inRight => exact .shared index inRight inLeft
  | leftInside isEmpty inside => exact .rightInside isEmpty inside
  | rightInside isEmpty inside => exact .leftInside isEmpty inside

theorem overlap_iff (properLeft : left.start ≤ left.stop) (properRight : right.start ≤ right.stop) :
    left.Overlap right ↔ right.start < left.stop ∧ left.start < right.stop := by
  constructor
  · intro overlap
    cases overlap <;> omega
  · rintro ⟨lower, upper⟩
    by_cases emptyLeft : left.start = left.stop
    · exact .leftInside emptyLeft (by omega)
    · by_cases emptyRight : right.start = right.stop
      · exact .rightInside emptyRight (by omega)
      · exact .shared (max left.start right.start) (by omega) (by omega)

end IndexRange

namespace Edit

/-- Two edits that are recorded at different places of a batch, and whose ranges overlap. -/
def Collide (edits : List Edit) (left right : Edit) : Prop :=
  ∃ first second : Nat, first ≠ second ∧ edits[first]? = some left ∧
    edits[second]? = some right ∧ left.range.Overlap right.range

/-- No two edits of a batch overlap. -/
def Clear (edits : List Edit) : Prop :=
  edits.Pairwise fun left right => ¬ left.range.Overlap right.range

theorem clear_iff {edits : List Edit} : Clear edits ↔ ∀ left right, ¬ Collide edits left right := by
  rw [Clear, List.pairwise_iff_getElem]
  constructor
  · rintro clear left right ⟨first, second, apart, atFirst, atSecond, overlap⟩
    obtain ⟨boundFirst, rfl⟩ := List.getElem?_eq_some_iff.mp atFirst
    obtain ⟨boundSecond, rfl⟩ := List.getElem?_eq_some_iff.mp atSecond
    rcases Nat.lt_or_gt_of_ne apart with earlier | later
    · exact clear first second boundFirst boundSecond earlier overlap
    · exact clear second first boundSecond boundFirst later overlap.symm
  · intro none first second boundFirst boundSecond earlier overlap
    exact none _ _ ⟨first, second, Nat.ne_of_lt earlier, List.getElem?_eq_getElem boundFirst,
      List.getElem?_eq_getElem boundSecond, overlap⟩

theorem Clear.perm {edits others : List Edit} (clear : Clear edits) (perm : edits.Perm others) :
    Clear others :=
  perm.pairwise clear fun free overlap => free overlap.symm

/-- Two edits in front of a rearranged batch are recorded at different places. -/
theorem exists_places {left right : Edit} {others edits : List Edit}
    (perm : (left :: right :: others).Perm edits) :
    ∃ first second : Nat, first ≠ second ∧ edits[first]? = some left ∧
      edits[second]? = some right := by
  obtain ⟨front, back, rfl⟩ := List.append_of_mem (perm.subset List.mem_cons_self)
  have rest : (right :: others).Perm (front ++ back) := (perm.trans List.perm_middle).cons_inv
  have atLeft : (front ++ left :: back)[front.length]? = some left := by simp
  rcases List.mem_append.mp (rest.subset List.mem_cons_self) with inFront | inBack
  · obtain ⟨place, found⟩ := List.mem_iff_getElem?.mp inFront
    have bound := (List.getElem?_eq_some_iff.mp found).1
    refine ⟨front.length, place, by omega, atLeft, ?_⟩
    rw [List.getElem?_append_left bound, found]
  · obtain ⟨place, found⟩ := List.mem_iff_getElem?.mp inBack
    refine ⟨front.length, front.length + 1 + place, by omega, atLeft, ?_⟩
    rw [List.getElem?_append_right (by omega), Nat.add_assoc, Nat.add_sub_cancel_left, Nat.add_comm,
      List.getElem?_cons_succ, found]

theorem sorted_perm (edits : List Edit) : (sorted edits).Perm edits :=
  List.mergeSort_perm edits comesBefore

theorem comesBefore_iff {left right : Edit} : left.comesBefore right = true ↔
    left.range.start < right.range.start ∨
      left.range.start = right.range.start ∧ left.range.stop ≤ right.range.stop := by
  simp [comesBefore]

theorem comesBefore_trans (first second third : Edit) (front : first.comesBefore second = true)
    (back : second.comesBefore third = true) : first.comesBefore third = true := by
  rw [comesBefore_iff] at front back ⊢
  omega

theorem comesBefore_total (left right : Edit) :
    (left.comesBefore right || right.comesBefore left) = true := by
  rw [Bool.or_eq_true, comesBefore_iff, comesBefore_iff]
  omega

theorem pairwise_sorted (edits : List Edit) :
    (sorted edits).Pairwise fun left right => left.comesBefore right = true :=
  List.pairwise_mergeSort comesBefore_trans comesBefore_total edits

section Neighbours

variable {left right : Edit} {edits : List Edit}

/-- For sorted edits, to overlap is to begin before the other one ends. -/
theorem overlap_iff_of_comesBefore (before : left.comesBefore right = true)
    (properLeft : left.range.start ≤ left.range.stop)
    (properRight : right.range.start ≤ right.range.stop) :
    left.range.Overlap right.range ↔ right.range.start < left.range.stop := by
  rw [IndexRange.overlap_iff properLeft properRight]
  rw [comesBefore_iff] at before
  omega

theorem overlaps_iff (before : left.comesBefore right = true)
    (properLeft : left.range.start ≤ left.range.stop)
    (properRight : right.range.start ≤ right.range.stop) :
    left.overlaps right = true ↔ left.range.Overlap right.range := by
  rw [overlap_iff_of_comesBefore before properLeft properRight, overlaps]
  rw [comesBefore_iff] at before
  simp only [IndexRange.isEmpty, Bool.or_eq_true, Bool.and_eq_true, decide_eq_true_eq, beq_iff_eq,
    Bool.not_eq_true', decide_eq_false_iff_not]
  omega

theorem exists_of_conflictAmong? {conflict : EditConflict}
    (found : conflictAmong? edits = some conflict) :
    ∃ front left right back, edits = front ++ left :: right :: back ∧
      left.overlaps right = true ∧ conflict = ⟨left.range, right.range⟩ := by
  fun_induction conflictAmong? edits with
  | case1 left right rest overlaps =>
      cases found
      exact ⟨[], left, right, rest, rfl, overlaps, rfl⟩
  | case2 left right rest _ ih =>
      obtain ⟨front, first, second, back, cut, overlaps, pair⟩ := ih found
      exact ⟨left :: front, first, second, back, by rw [cut, List.cons_append], overlaps, pair⟩
  | case3 => contradiction

/-- Neighbours that do not overlap keep all sorted edits apart, since no edit ends before it
begins. -/
theorem pairwise_apart_of_conflictAmong?
    (proper : ∀ edit ∈ edits, edit.range.start ≤ edit.range.stop)
    (inOrder : edits.Pairwise fun left right => left.comesBefore right = true)
    (none : conflictAmong? edits = none) :
    edits.Pairwise fun left right => left.range.stop ≤ right.range.start := by
  fun_induction conflictAmong? edits with
  | case1 => contradiction
  | case2 left right rest free ih =>
      have properLeft := proper left (by simp)
      have properRight := proper right (by simp)
      have before := (List.pairwise_cons.mp inOrder).1 right (by simp)
      rw [overlaps_iff before properLeft properRight,
        overlap_iff_of_comesBefore before properLeft properRight, Nat.not_lt] at free
      have later := ih (fun edit member => proper edit (List.mem_cons_of_mem _ member))
        (List.pairwise_cons.mp inOrder).2 none
      refine List.pairwise_cons.mpr ⟨List.forall_mem_cons.mpr ⟨free, fun other member => ?_⟩, later⟩
      have further := (List.pairwise_cons.mp later).1 other member
      omega
  | case3 edits short =>
      rcases edits with _ | ⟨left, _ | ⟨right, rest⟩⟩
      · exact .nil
      · exact List.pairwise_singleton _ _
      · exact absurd rfl (short left right rest)

end Neighbours

theorem pairwise_apart_sorted {edits : List Edit}
    (proper : ∀ edit ∈ edits, edit.range.start ≤ edit.range.stop)
    (none : conflict? edits = none) :
    (sorted edits).Pairwise fun left right => left.range.stop ≤ right.range.start :=
  pairwise_apart_of_conflictAmong?
    (fun edit member => proper edit ((sorted_perm edits).subset member)) (pairwise_sorted edits) none

theorem exists_collide_of_conflict? {edits : List Edit} {conflict : EditConflict}
    (proper : ∀ edit ∈ edits, edit.range.start ≤ edit.range.stop)
    (found : conflict? edits = some conflict) :
    ∃ left right, Collide edits left right ∧ conflict = ⟨left.range, right.range⟩ := by
  obtain ⟨front, left, right, back, cut, overlaps, pair⟩ := exists_of_conflictAmong? found
  have perm := sorted_perm edits
  have inOrder := pairwise_sorted edits
  rw [cut] at perm inOrder
  have before : left.comesBefore right = true :=
    (List.pairwise_cons.mp (List.pairwise_append.mp inOrder).2.1).1 right (by simp)
  have overlap := (overlaps_iff before (proper left (perm.subset (by simp)))
    (proper right (perm.subset (by simp)))).mp overlaps
  have toFront : (left :: right :: (front ++ back)).Perm (front ++ left :: right :: back) :=
    (List.perm_middle.trans (List.perm_middle.cons left)).symm
  obtain ⟨first, second, apart, atFirst, atSecond⟩ := exists_places (toFront.trans perm)
  exact ⟨left, right, ⟨first, second, apart, atFirst, atSecond, overlap⟩, pair⟩

/-- Edits that follow one another do not overlap. -/
theorem clear_of_apart {edits : List Edit}
    (proper : ∀ edit ∈ edits, edit.range.start ≤ edit.range.stop)
    (apart : edits.Pairwise fun left right => left.range.stop ≤ right.range.start) :
    Clear edits := by
  refine apart.imp_of_mem fun {left right} inLeft inRight order overlap => ?_
  rw [IndexRange.overlap_iff (proper left inLeft) (proper right inRight)] at overlap
  omega

theorem conflict?_eq_none_iff {edits : List Edit}
    (proper : ∀ edit ∈ edits, edit.range.start ≤ edit.range.stop) :
    conflict? edits = none ↔ Clear edits := by
  constructor
  · intro none
    have clear : Clear (sorted edits) :=
      clear_of_apart (fun edit member => proper edit ((sorted_perm edits).subset member))
        (pairwise_apart_sorted proper none)
    exact clear.perm (sorted_perm edits)
  · intro clear
    cases result : conflict? edits with
    | none => rfl
    | some conflict =>
        obtain ⟨left, right, collide, _⟩ := exists_collide_of_conflict? proper result
        exact absurd collide (clear_iff.mp clear left right)

/-- A batch is free of conflicts exactly when no two of its edits overlap, and a conflict names the
ranges of two edits that do. -/
theorem conflict?_exact (edits : List Edit)
    (proper : ∀ edit ∈ edits, edit.range.start ≤ edit.range.stop) :
    (conflict? edits = none ↔ ∀ left right, ¬ Collide edits left right) ∧
      ∀ conflict, conflict? edits = some conflict →
        ∃ left right, Collide edits left right ∧ conflict = ⟨left.range, right.range⟩ :=
  ⟨(conflict?_eq_none_iff proper).trans clear_iff,
    fun _ found => exists_collide_of_conflict? proper found⟩

/-- Ranges that touch, and insertions at their ends. -/
def touching : List Edit :=
  [insertion 6 [], ⟨⟨6, 9⟩, []⟩, ⟨⟨2, 6⟩, []⟩, insertion 2 [], insertion 6 [], insertion 9 []]

/-- An insertion inside of a range, with others at its ends. -/
def insertionInside : List Edit :=
  [insertion 6 [], insertion 3 [], insertion 2 [], ⟨⟨2, 6⟩, []⟩]

theorem conflict?_exact_insertionInside :
    (∀ edit ∈ touching, edit.range.start ≤ edit.range.stop) ∧ conflict? touching = none ∧
      (∀ left right, ¬ Collide touching left right) ∧
      (∀ edit ∈ insertionInside, edit.range.start ≤ edit.range.stop) ∧
      conflict? insertionInside = some ⟨⟨2, 6⟩, ⟨3, 3⟩⟩ ∧
      ∃ left right, Collide insertionInside left right ∧
        EditConflict.mk ⟨2, 6⟩ ⟨3, 3⟩ = ⟨left.range, right.range⟩ := by
  have properTouching : ∀ edit ∈ touching, edit.range.start ≤ edit.range.stop := by decide
  have properInside : ∀ edit ∈ insertionInside, edit.range.start ≤ edit.range.stop := by decide
  have none : conflict? touching = none := by cbv
  have found : conflict? insertionInside = some ⟨⟨2, 6⟩, ⟨3, 3⟩⟩ := by cbv
  exact ⟨properTouching, none, (conflict?_exact touching properTouching).1.mp none, properInside,
    found, (conflict?_exact insertionInside properInside).2 _ found⟩

end Edit

end ConstructorInjection
