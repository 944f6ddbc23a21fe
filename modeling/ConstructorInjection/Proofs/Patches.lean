import Mathlib.Data.List.Basic
import Mathlib.Tactic.Common
import ConstructorInjection.Patch.Reader

/-!
A patch makes the new lines out of the old ones. The compared lines hold both texts, the hunks take
in every change among them, and the printed patch is read back as the hunks that were printed.
-/

namespace ConstructorInjection

namespace Text

theorem splitAtEach_append {separator : Char} {part : Text} (absent : separator ∉ part)
    (rest : Text) :
    splitAtEach separator (part ++ separator :: rest) = part :: splitAtEach separator rest := by
  induction part with
  | nil => simp [splitAtEach]
  | cons first part ih =>
      simp only [List.mem_cons, not_or] at absent
      rw [List.cons_append, splitAtEach, if_neg (Ne.symm absent.1), ih absent.2]
      rfl

theorem dropStart?_append (start rest : Text) : dropStart? start (start ++ rest) = some rest := by
  simp [dropStart?]

theorem newline_notMem_of_mem_lines {text part : Text} (member : part ∈ lines text) :
    '\n' ∉ part := by
  fun_induction lines text generalizing part with
  | case1 => simp at member
  | case2 rest ih | case3 rest ih =>
      rcases List.mem_cons.mp member with rfl | later
      · simp
      · exact ih later
  | case4 last noNewline =>
      rw [List.mem_singleton.mp member, List.mem_singleton]
      exact fun same => noNewline (by rw [same])
  | case5 first rest noNewline _ _ ih =>
      cases parts : lines rest with
      | nil => simp [parts] at member
      | cons head tail =>
          rw [parts, List.modifyHead_cons, List.mem_cons] at member
          have isNewline : '\n' ≠ first := fun same => noNewline same.symm
          rcases member with rfl | later
          · simp only [List.mem_cons, not_or]
            exact ⟨isNewline, ih (by simp [parts])⟩
          · exact ih (by simp [parts, later])

theorem newline_notMem_decimal (number : Nat) : '\n' ∉ decimal number := by
  intro member
  have digit := Nat.isDigit_of_mem_toDigits (by omega) (by omega) member
  revert digit
  decide

end Text

/-- How a line is printed. -/
def PatchLine.printed (patchLine : PatchLine) : Text :=
  patchLine.mark :: patchLine.text

namespace Patch

section Sides

theorem oldSide_append (left right : List PatchLine) :
    oldSide (left ++ right) = oldSide left ++ oldSide right := by
  simp [oldSide]

theorem newSide_append (left right : List PatchLine) :
    newSide (left ++ right) = newSide left ++ newSide right := by
  simp [newSide]

theorem sides_cons (line : PatchLine) (lines : List PatchLine) :
    oldSide (line :: lines) = (if line.isOld then [line.text] else []) ++ oldSide lines ∧
      newSide (line :: lines) = (if line.isNew then [line.text] else []) ++ newSide lines := by
  cases line <;> exact ⟨rfl, rfl⟩

theorem length_oldSide (lines : List PatchLine) :
    (oldSide lines).length = lines.countP PatchLine.isOld := by
  simp [oldSide, List.countP_eq_length_filter]

theorem length_newSide (lines : List PatchLine) :
    (newSide lines).length = lines.countP PatchLine.isNew := by
  simp [newSide, List.countP_eq_length_filter]

theorem sides_removed (texts : List Text) :
    oldSide (texts.map .removed) = texts ∧ newSide (texts.map .removed) = [] := by
  induction texts with
  | nil => exact ⟨rfl, rfl⟩
  | cons text texts ih =>
      rw [List.map_cons, (sides_cons _ _).1, (sides_cons _ _).2, ih.1, ih.2]
      exact ⟨rfl, rfl⟩

theorem sides_added (texts : List Text) :
    oldSide (texts.map .added) = [] ∧ newSide (texts.map .added) = texts := by
  induction texts with
  | nil => exact ⟨rfl, rfl⟩
  | cons text texts ih =>
      rw [List.map_cons, (sides_cons _ _).1, (sides_cons _ _).2, ih.1, ih.2]
      exact ⟨rfl, rfl⟩

/-- Lines of which none is a change. -/
def Unchanged (lines : List PatchLine) : Prop :=
  ∀ line ∈ lines, line.isChange = false

theorem Unchanged.sides {lines : List PatchLine} (unchanged : Unchanged lines) :
    oldSide lines = lines.map PatchLine.text ∧ newSide lines = lines.map PatchLine.text ∧
      lines.countP PatchLine.isOld = lines.length ∧
      lines.countP PatchLine.isNew = lines.length := by
  have both : ∀ line ∈ lines, line.isOld = true ∧ line.isNew = true := by
    intro line member
    have same := unchanged line member
    cases line <;> simp_all [PatchLine.isChange, PatchLine.isOld, PatchLine.isNew]
  have old : lines.filter PatchLine.isOld = lines :=
    List.filter_eq_self.mpr fun line member => (both line member).1
  have new : lines.filter PatchLine.isNew = lines :=
    List.filter_eq_self.mpr fun line member => (both line member).2
  simp only [oldSide, newSide, List.countP_eq_length_filter, old, new, and_self]

end Sides

/-- The compared lines hold the lines of both texts. -/
theorem sides_lines (old new : List Text) :
    oldSide (lines old new) = old ∧ newSide (lines old new) = new := by
  fun_induction lines old new with
  | case1 new => exact sides_added new
  | case2 old _ => exact sides_removed old
  | case3 left old new ih =>
      rw [(sides_cons _ _).1, (sides_cons _ _).2, ih.1, ih.2]
      exact ⟨rfl, rfl⟩
  | case4 left old right new different passedOld passedNew met ih =>
      simp only [oldSide_append, newSide_append, sides_removed, sides_added, ih]
      simp
  | case5 left old right new different unmet =>
      simp only [oldSide_append, newSide_append, sides_removed, sides_added]
      simp

theorem unchanged_lines_iff (old new : List Text) : Unchanged (lines old new) ↔ old = new := by
  obtain ⟨oldLines, newLines⟩ := sides_lines old new
  constructor
  · intro unchanged
    obtain ⟨oldTexts, newTexts, _⟩ := unchanged.sides
    exact oldLines.symm.trans (oldTexts.trans (newTexts.symm.trans newLines))
  · rintro rfl
    clear oldLines newLines
    induction old with
    | nil => simp [lines, Unchanged]
    | cons first rest ih =>
        rw [lines, if_pos rfl]
        intro line member
        rcases List.mem_cons.mp member with rfl | later
        · rfl
        · exact ih line later

section Hunks

theorem mem_changes_iff {lines : List PatchLine} {index : Nat} :
    index ∈ changes lines ↔ lines[index]?.any PatchLine.isChange = true := by
  rw [changes, List.mem_filter, List.mem_range, and_iff_right_iff_imp]
  intro change
  by_contra outside
  simp [List.getElem?_eq_none (Nat.le_of_not_lt outside)] at change

/-- Groups of indices begin and end with members, leave none out, and lie too far apart for the
contexts of two to touch. -/
structure Grouping (indices : List Nat) (groups : List (Nat × Nat)) : Prop where
  ends : ∀ group ∈ groups, group.1 ∈ indices ∧ group.2 ∈ indices ∧ group.1 ≤ group.2
  apart : groups.Pairwise fun left right => left.2 + 2 * context + 1 < right.1
  covered : ∀ index ∈ indices, ∃ group ∈ groups, group.1 ≤ index ∧ index ≤ group.2

namespace Grouping

variable {index : Nat} {rest : List Nat}

theorem first {groups : List (Nat × Nat)} (grouping : Grouping rest groups)
    (far : ∀ group ∈ groups, index + 2 * context + 1 < group.1) :
    Grouping (index :: rest) ((index, index) :: groups) where
  ends := by
    intro group member
    rcases List.mem_cons.mp member with rfl | later
    · simp
    · obtain ⟨front, back, ordered⟩ := grouping.ends group later
      exact ⟨List.mem_cons_of_mem _ front, List.mem_cons_of_mem _ back, ordered⟩
  apart := List.pairwise_cons.mpr ⟨far, grouping.apart⟩
  covered := by
    intro other member
    rcases List.mem_cons.mp member with rfl | later
    · exact ⟨_, List.mem_cons_self, Nat.le_refl _, Nat.le_refl _⟩
    · obtain ⟨group, grouped, bounds⟩ := grouping.covered other later
      exact ⟨group, List.mem_cons_of_mem _ grouped, bounds⟩

theorem join {first last : Nat} {others : List (Nat × Nat)}
    (grouping : Grouping rest ((first, last) :: others)) (below : ∀ other ∈ rest, index < other) :
    Grouping (index :: rest) ((index, last) :: others) where
  ends := by
    intro group member
    rcases List.mem_cons.mp member with rfl | later
    · obtain ⟨front, back, ordered⟩ := grouping.ends (first, last) List.mem_cons_self
      have before := below first front
      exact ⟨by simp, by simp [back], by simp only at ordered ⊢; omega⟩
    · obtain ⟨front, back, ordered⟩ := grouping.ends group (List.mem_cons_of_mem _ later)
      exact ⟨List.mem_cons_of_mem _ front, List.mem_cons_of_mem _ back, ordered⟩
  apart := List.pairwise_cons.mpr (List.pairwise_cons.mp grouping.apart)
  covered := by
    obtain ⟨front, back, ordered⟩ := grouping.ends (first, last) List.mem_cons_self
    have before := below first front
    intro other member
    rcases List.mem_cons.mp member with rfl | later
    · exact ⟨_, List.mem_cons_self, Nat.le_refl _, by simp only at ordered ⊢; omega⟩
    · obtain ⟨group, grouped, lower, upper⟩ := grouping.covered other later
      rcases List.mem_cons.mp grouped with rfl | inOthers
      · exact ⟨_, List.mem_cons_self, Nat.le_of_lt (below other later), upper⟩
      · exact ⟨group, List.mem_cons_of_mem _ inOthers, lower, upper⟩

end Grouping

theorem grouping_groups {indices : List Nat} (sorted : indices.Pairwise (· < ·)) :
    Grouping indices (groups indices) := by
  induction indices with
  | nil => exact ⟨by simp [groups], by simp [groups], by simp⟩
  | cons index rest ih =>
      obtain ⟨below, sortedRest⟩ := List.pairwise_cons.mp sorted
      have grouping := ih sortedRest
      rw [groups]
      split
      next noHunk =>
        rw [noHunk] at grouping
        exact grouping.first (by simp)
      next first last others found =>
        rw [found] at grouping
        split
        · exact grouping.join below
        · refine grouping.first fun group member => ?_
          rcases List.mem_cons.mp member with rfl | later
          · simp only; omega
          · have further := (List.pairwise_cons.mp grouping.apart).1 group later
            have ordered := (grouping.ends (first, last) List.mem_cons_self).2.2
            simp only at further ordered
            omega

theorem hunks_parts (lines : List PatchLine) :
    (∀ hunk ∈ hunks lines, hunk.start < hunk.stop ∧ hunk.stop ≤ lines.length) ∧
      (hunks lines).Pairwise (fun left right => left.stop < right.start) ∧
      ∀ index, lines[index]?.any PatchLine.isChange = true →
        ∃ hunk ∈ hunks lines, hunk.start ≤ index ∧ index < hunk.stop := by
  have sorted : (changes lines).Pairwise (· < ·) := List.pairwise_lt_range.filter _
  obtain ⟨ends, apart, covered⟩ := grouping_groups sorted
  have inside : ∀ index ∈ changes lines, index < lines.length := fun index member =>
    List.mem_range.mp (List.mem_filter.mp member).1
  refine ⟨?_, ?_, ?_⟩
  · intro hunk member
    obtain ⟨group, grouped, rfl⟩ := List.mem_map.mp member
    obtain ⟨_, lastIn, ordered⟩ := ends group grouped
    have bound := inside _ lastIn
    simp only
    omega
  · refine List.pairwise_map.mpr (apart.imp ?_)
    intro left right far
    simp only [context] at far ⊢
    omega
  · intro index change
    have member := mem_changes_iff.mpr change
    obtain ⟨group, grouped, lower, upper⟩ := covered index member
    have bound := inside index member
    refine ⟨_, List.mem_map_of_mem grouped, ?_⟩
    simp only
    omega

/-- How hunks lie in lines that follow other ones: every hunk has lines, unchanged ones stand between
two of them, and no change is left out. -/
inductive Hunked : List PatchLine → List PatchLine → List PlacedHunk → Prop where
  | same {before rest : List PatchLine} (unchanged : Unchanged rest) : Hunked before rest []
  | hunk {before kept body rest : List PatchLine} {hunks : List PlacedHunk}
      (unchanged : Unchanged kept) (apart : before = [] ∨ kept ≠ []) (filled : body ≠ [])
      (later : Hunked (before ++ (kept ++ body)) rest hunks) :
      Hunked before (kept ++ (body ++ rest)) (placed (before ++ kept) body :: hunks)

def Hunk.placed (hunk : Hunk) (lines : List PatchLine) : PlacedHunk :=
  Patch.placed (lines.take hunk.start) (hunk.body lines)

theorem take_append_between (lines : List PatchLine) {first second : Nat} (ordered : first ≤ second) :
    lines.take first ++ (lines.take second).drop first = lines.take second := by
  have cut := List.take_append_drop first (lines.take second)
  rwa [List.take_take, Nat.min_eq_left ordered] at cut

theorem between_append_drop (lines : List PatchLine) {first second : Nat} (ordered : first ≤ second) :
    (lines.take second).drop first ++ lines.drop second = lines.drop first := by
  have cut := List.take_append_drop (second - first) (lines.drop first)
  rwa [List.drop_drop, Nat.add_sub_cancel' ordered, ← List.drop_take] at cut

/-- Hunks behind an index that take in every change there. -/
theorem hunked_of_ranges {lines : List PatchLine} {hunks : List Hunk} {index : Nat}
    (bounds : ∀ hunk ∈ hunks, index ≤ hunk.start ∧ (index = 0 ∨ index < hunk.start) ∧
      hunk.start < hunk.stop ∧ hunk.stop ≤ lines.length)
    (apart : hunks.Pairwise fun left right => left.stop < right.start)
    (covered : ∀ place, index ≤ place → lines[place]?.any PatchLine.isChange = true →
      ∃ hunk ∈ hunks, hunk.start ≤ place ∧ place < hunk.stop) :
    Hunked (lines.take index) (lines.drop index) (hunks.map (·.placed lines)) := by
  induction hunks generalizing index with
  | nil =>
      refine .same fun line member => ?_
      obtain ⟨offset, found⟩ := List.mem_iff_getElem?.mp member
      rw [List.getElem?_drop] at found
      by_contra change
      obtain ⟨hunk, none, _⟩ := covered (index + offset) (by omega) (by simpa [found] using change)
      simp at none
  | cons hunk later ih =>
      obtain ⟨lower, strictly, nonempty, inside⟩ := bounds hunk List.mem_cons_self
      obtain ⟨fromHunk, apartLater⟩ := List.pairwise_cons.mp apart
      have rest : Hunked (lines.take hunk.stop) (lines.drop hunk.stop)
          (later.map (·.placed lines)) := by
        refine ih ?_ apartLater ?_
        · intro other member
          have behind := fromHunk other member
          obtain ⟨_, _, more⟩ := bounds other (List.mem_cons_of_mem _ member)
          exact ⟨by omega, .inr behind, more⟩
        · intro place behind change
          obtain ⟨other, member, within⟩ := covered place (by omega) change
          rcases List.mem_cons.mp member with rfl | inLater
          · omega
          · exact ⟨other, inLater, within⟩
      have kept := take_append_between lines lower
      have body := take_append_between lines (Nat.le_of_lt nonempty)
      rw [← body, ← kept, List.append_assoc] at rest
      have place : hunk.placed lines =
          Patch.placed (lines.take index ++ (lines.take hunk.start).drop index)
            ((lines.take hunk.stop).drop hunk.start) := by
        rw [kept]
        rfl
      rw [List.map_cons, place, ← between_append_drop lines lower,
        ← between_append_drop lines (Nat.le_of_lt nonempty)]
      refine .hunk ?_ ?_ ?_ rest
      · intro line member
        obtain ⟨offset, found⟩ := List.mem_iff_getElem?.mp member
        rw [List.getElem?_drop, List.getElem?_take] at found
        split at found
        next before =>
          by_contra change
          obtain ⟨other, among, start, stop⟩ :=
            covered (index + offset) (by omega) (by simpa [found] using change)
          rcases List.mem_cons.mp among with rfl | inLater
          · omega
          · have behind := fromHunk other inLater
            omega
        next => contradiction
      · rcases strictly with rfl | behind
        · exact .inl List.take_zero
        · refine .inr (List.ne_nil_of_length_pos ?_)
          simp only [List.length_drop, List.length_take]
          omega
      · refine List.ne_nil_of_length_pos ?_
        simp only [List.length_drop, List.length_take]
        omega

theorem hunked_hunks (lines : List PatchLine) :
    Hunked [] lines ((hunks lines).map (·.placed lines)) := by
  obtain ⟨bounds, apart, covered⟩ := hunks_parts lines
  have fromStart : ∀ hunk ∈ hunks lines, 0 ≤ hunk.start ∧ (0 = 0 ∨ 0 < hunk.start) ∧
      hunk.start < hunk.stop ∧ hunk.stop ≤ lines.length :=
    fun hunk member => ⟨Nat.zero_le _, .inl rfl, bounds hunk member⟩
  exact hunked_of_ranges fromStart apart fun index _ => covered index

end Hunks

namespace Hunked

variable {before lines : List PatchLine} {hunks : List PlacedHunk}

/-- Hunks make the new lines out of the old ones. -/
theorem applyFrom? (hunked : Hunked before lines hunks) :
    Patch.applyFrom? (before.countP PatchLine.isOld) (before.countP PatchLine.isNew) hunks
      (oldSide lines) = some (newSide lines) := by
  induction hunked with
  | same unchanged =>
      obtain ⟨old, new, _⟩ := unchanged.sides
      rw [Patch.applyFrom?, old, new]
  | @hunk before kept body rest hunks unchanged _ _ _ ih =>
      obtain ⟨old, new, oldCount, newCount⟩ := unchanged.sides
      have keptLength : (oldSide kept).length = kept.length := by rw [length_oldSide, oldCount]
      have keptSame : oldSide kept = newSide kept := old.trans new.symm
      have gap : (before ++ kept).countP PatchLine.isOld + 1 -
          (before.countP PatchLine.isOld + 1) = kept.length := by
        rw [List.countP_append, oldCount]
        omega
      have behindKept : (oldSide (kept ++ (body ++ rest))).drop kept.length =
          oldSide body ++ oldSide rest := by
        rw [oldSide_append, oldSide_append, List.drop_left' keptLength]
      have behindBody : (oldSide (kept ++ (body ++ rest))).drop
          (kept.length + (oldSide body).length) = oldSide rest := by
        rw [← List.drop_drop, behindKept, List.drop_left]
      have front : (oldSide (kept ++ (body ++ rest))).take kept.length = newSide kept := by
        rw [oldSide_append, List.take_left' keptLength, keptSame]
      simp only [List.countP_append, oldCount, newCount, ← Nat.add_assoc] at ih
      simp only [Patch.applyFrom?, placed, gap, behindKept, behindBody, front]
      rw [if_pos ?_, ih]
      · simp only [Option.map_some, newSide_append, List.append_assoc]
      · simp only [List.countP_append, oldCount, newCount, List.isPrefixOf_iff_prefix, true_and]
        refine ⟨?_, List.prefix_append _ _⟩
        rw [oldSide_append, List.length_append, keptLength]
        omega

theorem unchanged (hunked : Hunked before lines []) : Unchanged lines := by
  generalize noHunks : ([] : List PlacedHunk) = hunks at hunked
  cases hunked with
  | same unchanged => exact unchanged
  | hunk => contradiction

/-- What one of the hunks says of the lines before it, of its own and of those behind it. -/
theorem exists_parts {front later : List PlacedHunk} {hunk : PlacedHunk}
    (hunked : Hunked before lines (front ++ hunk :: later)) :
    ∃ passed rest, lines = passed ++ (hunk.body ++ rest) ∧ Hunked before passed front ∧
      hunk = placed (before ++ passed) hunk.body ∧
      Hunked (before ++ (passed ++ hunk.body)) rest later := by
  induction front generalizing before lines with
  | nil =>
      cases hunked with
      | @hunk _ kept body rest _ unchanged apart filled behind =>
          exact ⟨kept, rest, rfl, .same unchanged, rfl, behind⟩
  | cons first front ih =>
      cases hunked with
      | @hunk _ kept body rest _ unchanged apart filled behind =>
          obtain ⟨passed, others, rfl, among, place, further⟩ := ih behind
          refine ⟨kept ++ (body ++ passed), others, by simp, .hunk unchanged apart filled among, ?_, ?_⟩
          · simpa using place
          · simpa using further

theorem starts_behind (hunked : Hunked before lines hunks) (nonempty : before ≠ []) :
    ∀ hunk ∈ hunks, before.countP PatchLine.isOld + 1 < hunk.oldStart ∧
      before.countP PatchLine.isNew + 1 < hunk.newStart := by
  induction hunked with
  | same => simp
  | @hunk before kept body rest hunks unchanged apart filled behind ih =>
      obtain ⟨_, _, oldCount, newCount⟩ := unchanged.sides
      have gap : 0 < kept.length := List.length_pos_iff.mpr (apart.resolve_left nonempty)
      intro hunk member
      rcases List.mem_cons.mp member with rfl | later
      · simp only [placed, List.countP_append, oldCount, newCount]
        omega
      · have further := ih (by simp [nonempty]) hunk later
        simp only [List.countP_append] at further
        omega

theorem increasing (hunked : Hunked before lines hunks) :
    hunks.Pairwise fun left right => left.oldStart + left.oldCount < right.oldStart ∧
      left.newStart + left.newCount < right.newStart := by
  induction hunked with
  | same => exact .nil
  | @hunk before kept body rest hunks unchanged apart filled behind ih =>
      refine List.pairwise_cons.mpr ⟨fun hunk member => ?_, ih⟩
      have further := behind.starts_behind (by simp [filled]) hunk member
      simp only [placed, List.countP_append] at further ⊢
      omega

end Hunked

/-- Hunks that turn the old lines into the new ones. -/
structure IsPatch (hunks : List PlacedHunk) (old new : List Text) : Prop where
  counts : ∀ hunk ∈ hunks, hunk.oldCount = hunk.body.countP PatchLine.isOld ∧
    hunk.newCount = hunk.body.countP PatchLine.isNew
  increasing : hunks.Pairwise fun left right => left.oldStart + left.oldCount < right.oldStart ∧
    left.newStart + left.newCount < right.newStart
  /-- One line less than a start says stands before the hunk, and the hunks before it make the new
  ones of these lines out of the old ones. -/
  starts : ∀ front hunk later, hunks = front ++ hunk :: later →
    (old.take (hunk.oldStart - 1)).length + 1 = hunk.oldStart ∧
      (new.take (hunk.newStart - 1)).length + 1 = hunk.newStart ∧
      patched? front (old.take (hunk.oldStart - 1)) = some (new.take (hunk.newStart - 1))
  /-- The lines of a hunk stand in the texts where the hunk starts. -/
  shown : ∀ hunk ∈ hunks,
    (old.drop (hunk.oldStart - 1)).take hunk.oldCount = oldSide hunk.body ∧
      (new.drop (hunk.newStart - 1)).take hunk.newCount = newSide hunk.body
  applies : patched? hunks old = some new

theorem Hunked.isPatch {lines : List PatchLine} {hunks : List PlacedHunk}
    (hunked : Hunked [] lines hunks) : IsPatch hunks (oldSide lines) (newSide lines) where
  counts := by
    intro hunk member
    obtain ⟨front, later, rfl⟩ := List.append_of_mem member
    obtain ⟨passed, rest, _, _, place, _⟩ := hunked.exists_parts
    rw [place]
    exact ⟨rfl, rfl⟩
  increasing := hunked.increasing
  starts := by
    rintro front hunk later rfl
    obtain ⟨passed, rest, rfl, among, place, _⟩ := hunked.exists_parts
    have applied := among.applyFrom?
    rw [place]
    simp only [placed, List.nil_append, Nat.add_sub_cancel, ← length_oldSide, ← length_newSide,
      oldSide_append, newSide_append, List.take_left, true_and, patched?]
    exact applied
  shown := by
    intro hunk member
    obtain ⟨front, later, rfl⟩ := List.append_of_mem member
    obtain ⟨passed, rest, rfl, _, place, _⟩ := hunked.exists_parts
    rw [place]
    simp only [placed, List.nil_append, Nat.add_sub_cancel, ← length_oldSide, ← length_newSide,
      oldSide_append, newSide_append, List.drop_left, List.take_left, and_self]
  applies := hunked.applyFrom?

section Reading

theorem finishedLines?_flatMap_line {texts : List Text} (single : ∀ text ∈ texts, '\n' ∉ text) :
    Text.finishedLines? (texts.flatMap line) = some texts := by
  have parts : Text.splitAtEach '\n' (texts.flatMap line) = texts ++ [[]] := by
    induction texts with
    | nil => rfl
    | cons text texts ih =>
        rw [List.flatMap_cons, line, List.append_assoc, List.singleton_append,
          Text.splitAtEach_append (single text List.mem_cons_self),
          ih fun other member => single other (List.mem_cons_of_mem _ member)]
        rfl
  simp [Text.finishedLines?, parts]

theorem readNumber?_decimal (number : Nat) {rest : Text}
    (stop : rest.head?.any Char.isDigit = false) :
    readNumber? (Text.decimal number ++ rest) = some (number, rest) := by
  have isDigit : ∀ character ∈ Text.decimal number, character.isDigit = true := fun _ member =>
    Nat.isDigit_of_mem_toDigits (by omega) (by omega) member
  have digits : (Text.decimal number ++ rest).takeWhile Char.isDigit = Text.decimal number := by
    rw [List.takeWhile_append_of_pos isDigit]
    cases rest with
    | nil => simp
    | cons first rest =>
        rw [List.takeWhile_cons_of_neg (by simpa using stop), List.append_nil]
  rw [readNumber?, digits]
  cases written : Text.decimal number with
  | nil => exact absurd written Nat.toDigits_ne_nil
  | cons first others =>
      have value : Nat.ofDigitChars 10 (first :: others) 0 = number := by
        rw [← written]
        exact Nat.ofDigitChars_ten_toDigits
      simp [value]

theorem readField?_append (mark : Text) (number : Nat) {rest : Text}
    (stop : rest.head?.any Char.isDigit = false) :
    readField? mark (mark ++ (Text.decimal number ++ rest)) = some (number, rest) := by
  rw [readField?, Text.dropStart?_append, Option.bind_some, readNumber?_decimal number stop]

theorem readHeader?_header (hunk : Hunk) (lines : List PatchLine) :
    readHeader? (hunk.header lines) = some { hunk.placed lines with body := [] } := by
  unfold readHeader? Hunk.header
  simp only [List.append_assoc]
  rw [readField?_append]
  · simp only [Option.bind_eq_bind, Option.bind_some]
    rw [readField?_append]
    · simp only [Option.bind_some]
      rw [readField?_append]
      · simp only [Option.bind_some]
        rw [readField?_append _ _ rfl]
        simp only [Option.bind_some, if_true]
        rfl
      · rfl
    · rfl
  · rfl

theorem readHeader?_printed (patchLine : PatchLine) : readHeader? patchLine.printed = none := by
  have noHeader : Text.dropStart? "@@ -" patchLine.printed = none := by
    cases patchLine <;> rfl
  unfold readHeader? readField?
  rw [noHeader]
  rfl

theorem readLine?_printed (patchLine : PatchLine) : readLine? patchLine.printed = some patchLine := by
  cases patchLine <;> rfl

theorem readHunks?_printed {body front : List PatchLine} {rest : List Text}
    {hunks : List PlacedHunk} (read : readHunks? rest = some (front, hunks)) :
    readHunks? (body.map PatchLine.printed ++ rest) = some (body ++ front, hunks) := by
  induction body with
  | nil => exact read
  | cons first body ih =>
      rw [List.map_cons, List.cons_append, readHunks?, ih]
      simp [readHeader?_printed, readLine?_printed]

def Hunk.printed (hunk : Hunk) (lines : List PatchLine) : List Text :=
  hunk.header lines :: (hunk.body lines).map PatchLine.printed

theorem readHunks?_hunks (hunks : List Hunk) (lines : List PatchLine) :
    readHunks? (hunks.flatMap (·.printed lines)) = some ([], hunks.map (·.placed lines)) := by
  induction hunks with
  | nil => rfl
  | cons hunk hunks ih =>
      rw [List.flatMap_cons, Hunk.printed, List.cons_append, readHunks?, readHunks?_printed ih]
      simp [readHeader?_header, Hunk.placed, Patch.placed]

theorem render_eq_lines (hunk : Hunk) (lines : List PatchLine) :
    hunk.render lines = (hunk.printed lines).flatMap line := by
  rw [Hunk.render, Hunk.printed, List.flatMap_cons, List.flatMap_map]
  rfl

theorem newline_notMem_header (hunk : Hunk) (lines : List PatchLine) :
    '\n' ∉ hunk.header lines := by
  unfold Hunk.header
  simp only [List.mem_append, Text.newline_notMem_decimal, or_false]
  decide

theorem newline_notMem_of_mem_lines {old new : Text} {patchLine : PatchLine}
    (member : patchLine ∈ lines (Text.lines old) (Text.lines new)) : '\n' ∉ patchLine.text := by
  obtain ⟨oldLines, newLines⟩ := sides_lines (Text.lines old) (Text.lines new)
  have inText : patchLine.text ∈ Text.lines old ∨ patchLine.text ∈ Text.lines new := by
    cases patchLine with
    | same text | removed text =>
        exact .inl (oldLines ▸ List.mem_map_of_mem (List.mem_filter.mpr ⟨member, rfl⟩))
    | added text =>
        exact .inr (newLines ▸ List.mem_map_of_mem (List.mem_filter.mpr ⟨member, rfl⟩))
  rcases inText with inOld | inNew
  · exact Text.newline_notMem_of_mem_lines inOld
  · exact Text.newline_notMem_of_mem_lines inNew

theorem newline_notMem_printed {old new text : Text} {hunk : Hunk}
    (member : text ∈ hunk.printed (lines (Text.lines old) (Text.lines new))) : '\n' ∉ text := by
  rcases List.mem_cons.mp member with rfl | inBody
  · exact newline_notMem_header _ _
  · obtain ⟨patchLine, among, rfl⟩ := List.mem_map.mp inBody
    have noNewline := newline_notMem_of_mem_lines
      (List.mem_of_mem_take (List.mem_of_mem_drop among))
    rw [PatchLine.printed, List.mem_cons, not_or]
    refine ⟨?_, noNewline⟩
    cases patchLine <;> simp [PatchLine.mark]

/-- The printed patch is read back as the hunks that it was printed from. -/
theorem read?_render (path old new : Text) :
    read? path (render path old new) =
      some ((hunks (lines (Text.lines old) (Text.lines new))).map
        (·.placed (lines (Text.lines old) (Text.lines new)))) := by
  unfold render
  simp only
  split
  next noChange => rw [noChange, read?, if_pos rfl]; rfl
  next first rest found =>
    rw [read?, if_neg (by simp [line]), Text.dropStart?_append, ← found]
    simp only [render_eq_lines, Option.bind_eq_bind, Option.bind_some, ← List.flatMap_assoc]
    rw [finishedLines?_flatMap_line, Option.bind_some, readHunks?_hunks]
    · rfl
    · intro text member
      obtain ⟨hunk, _, printed⟩ := List.mem_flatMap.mp member
      exact newline_notMem_printed printed

end Reading

theorem render_eq_nil_iff (path old new : Text) :
    render path old new = [] ↔ Text.lines old = Text.lines new := by
  rw [← unchanged_lines_iff]
  unfold render
  simp only
  split
  next noChange =>
    have noHunks := hunked_hunks (lines (Text.lines old) (Text.lines new))
    rw [noChange] at noHunks
    exact iff_of_true rfl noHunks.unchanged
  next first rest found =>
    refine iff_of_false (by simp [line]) fun unchanged => ?_
    have noChange : changes (lines (Text.lines old) (Text.lines new)) = [] := by
      refine List.eq_nil_iff_forall_not_mem.mpr fun index member => ?_
      obtain ⟨patchLine, among, change⟩ := Option.any_eq_true _ _ |>.mp (mem_changes_iff.mp member)
      rw [unchanged patchLine (List.mem_of_getElem? among)] at change
      contradiction
    rw [hunks, noChange] at found
    contradiction

/-- A printed patch is empty exactly when the texts have the same lines, and what is read back from
it makes the new lines out of the old ones. -/
theorem render_isPatch (path old new : Text) :
    (render path old new = [] ↔ Text.lines old = Text.lines new) ∧
      ∃ hunks, read? path (render path old new) = some hunks ∧
        IsPatch hunks (Text.lines old) (Text.lines new) := by
  have patch := (hunked_hunks (lines (Text.lines old) (Text.lines new))).isPatch
  obtain ⟨oldLines, newLines⟩ := sides_lines (Text.lines old) (Text.lines new)
  rw [oldLines, newLines] at patch
  exact ⟨render_eq_nil_iff path old new, _, read?_render path old new, patch⟩

end Patch

end ConstructorInjection
