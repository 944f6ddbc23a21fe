import Mathlib.Data.List.Basic
import Mathlib.Data.List.Pairwise
import Mathlib.Tactic.Common
import ConstructorInjection.Proofs.EditConflicts
import ConstructorInjection.Proofs.Editing

/-!
What a batch of edits means: one walk over the stream from left to right, which puts insertions in
front of the token that they address and leaves out what is replaced. Only the order of insertions
at one index matters.
-/

namespace ConstructorInjection

namespace Edit

/-- The insertions in front of an index, in the order in which they are recorded. -/
def insertions (edits : List Edit) (index : Nat) : List Edit :=
  edits.filter (·.range = ⟨index, index⟩)

/-- The edit that replaces the token at an index and maybe more behind it. -/
def replacing? (edits : List Edit) (index : Nat) : Option Edit :=
  edits.find? fun edit => edit.range.start = index ∧ index < edit.range.stop

/-- One pass over the tokens from an index on: the insertions in front of each token, then the token
itself, or a replacement in the place of the tokens that it replaces. -/
def walk (edits : List Edit) (index : Nat) : List Token → List Token
  | [] => (insertions edits index).flatMap replacement
  | token :: rest =>
    (insertions edits index).flatMap replacement ++
      match replacing? edits index with
      | some edit =>
        edit.replacement ++ walk edits edit.range.stop (rest.drop (edit.range.stop - (index + 1)))
      | none => token :: walk edits (index + 1) rest
termination_by tokens => tokens.length
decreasing_by
  · simp only [List.length_drop, List.length_cons]
    omega
  · simp

section Walks

variable {edits left right : List Edit} {edit : Edit} {index : Nat} {tokens : List Token}

theorem bounds_of_replacing? (found : replacing? edits index = some edit) :
    edit ∈ edits ∧ edit.range.start = index ∧ index < edit.range.stop :=
  ⟨List.mem_of_find?_eq_some found, by simpa using List.find?_some found⟩

/-- The walk depends on the insertions at each place and on what is replaced there. -/
theorem walk_congr
    (inserted : ∀ place, index ≤ place → insertions left place = insertions right place)
    (replaced : ∀ place, index ≤ place → replacing? left place = replacing? right place) :
    walk left index tokens = walk right index tokens := by
  fun_induction walk left index tokens with
  | case1 index => rw [walk, inserted index (Nat.le_refl _)]
  | case2 index token rest ihReplaced ihKept =>
      rw [walk, inserted index (Nat.le_refl _), replaced index (Nat.le_refl _)]
      cases found : replacing? right index with
      | none =>
          simp only
          rw [ihKept (fun place bound => inserted place (by omega))
            fun place bound => replaced place (by omega)]
      | some edit =>
          obtain ⟨_, _, further⟩ := bounds_of_replacing? found
          simp only
          rw [ihReplaced edit (fun place bound => inserted place (by omega))
            fun place bound => replaced place (by omega)]

theorem insertions_cons_of_ne (elsewhere : edit.range ≠ ⟨index, index⟩) :
    insertions (edit :: edits) index = insertions edits index := by
  rw [insertions, List.filter_cons_of_neg (by simpa using elsewhere), insertions]

theorem replacing?_cons_of_not
    (elsewhere : ¬ (edit.range.start = index ∧ index < edit.range.stop)) :
    replacing? (edit :: edits) index = replacing? edits index := by
  rw [replacing?, List.find?_cons_of_neg (by simpa using elsewhere), replacing?]

/-- An edit in front of the walk has no part in it. -/
theorem walk_cons_of_lt (before : edit.range.start < index) :
    walk (edit :: edits) index tokens = walk edits index tokens := by
  apply walk_congr
  · intro place bound
    refine insertions_cons_of_ne fun same => ?_
    rw [same] at before
    simp only at before
    omega
  · intro place bound
    exact replacing?_cons_of_not fun here => by omega

theorem insertions_eq_nil (behind : ∀ edit ∈ edits, index < edit.range.start) :
    insertions edits index = [] := by
  refine List.filter_eq_nil_iff.mpr fun edit member => ?_
  have later := behind edit member
  rw [decide_eq_true_eq]
  intro same
  rw [same] at later
  exact Nat.lt_irrefl _ later

theorem replacing?_eq_none (behind : ∀ edit ∈ edits, index < edit.range.start) :
    replacing? edits index = none := by
  refine List.find?_eq_none.mpr fun edit member => ?_
  have later := behind edit member
  rw [decide_eq_true_eq]
  omega

/-- In front of all edits, the walk keeps the tokens. -/
theorem walk_append {limit : Nat} {kept rest : List Token} (place : index + kept.length = limit)
    (behind : ∀ edit ∈ edits, limit ≤ edit.range.start) :
    walk edits index (kept ++ rest) = kept ++ walk edits limit rest := by
  induction kept generalizing index with
  | nil => rw [List.nil_append, List.nil_append, ← place, List.length_nil, Nat.add_zero]
  | cons token kept ih =>
      rw [List.length_cons] at place
      have later : ∀ edit ∈ edits, index < edit.range.start := by
        intro edit member
        have bound := behind edit member
        omega
      rw [List.cons_append, walk, insertions_eq_nil later, replacing?_eq_none later]
      simp only [List.flatMap_nil, List.nil_append]
      rw [ih (by omega), List.cons_append]

/-- An insertion in front of a batch comes first at its place. -/
theorem walk_insertion (isInsertion : edit.range = ⟨index, index⟩) :
    walk (edit :: edits) index tokens = edit.replacement ++ walk edits index tokens := by
  have inserted : insertions (edit :: edits) index = edit :: insertions edits index :=
    List.filter_cons_of_pos (by rw [decide_eq_true_eq]; exact isInsertion)
  have replaced : replacing? (edit :: edits) index = replacing? edits index := by
    refine replacing?_cons_of_not fun here => ?_
    rw [isInsertion] at here
    exact Nat.lt_irrefl _ here.2
  have start : edit.range.start = index := congrArg IndexRange.start isInsertion
  cases tokens with
  | nil => rw [walk, walk, inserted, List.flatMap_cons]
  | cons token rest =>
      rw [walk, walk, inserted, replaced, List.flatMap_cons, List.append_assoc]
      congr 2
      cases found : replacing? edits index with
      | none => simp only [walk_cons_of_lt (show edit.range.start < index + 1 by omega)]
      | some other =>
          have further := (bounds_of_replacing? found).2.2
          simp only [walk_cons_of_lt (show edit.range.start < other.range.stop by omega)]

/-- A replacement of at least one token goes in front of what follows these tokens. -/
theorem walk_replacement {token : Token} {removed rest : List Token}
    (place : edit.range.start + (token :: removed).length = edit.range.stop)
    (behind : ∀ other ∈ edits, edit.range.start < other.range.start) :
    walk (edit :: edits) edit.range.start (token :: removed ++ rest) =
      edit.replacement ++ walk edits edit.range.stop rest := by
  rw [List.length_cons] at place
  have noInsertion : edit.range ≠ ⟨edit.range.start, edit.range.start⟩ := by
    intro same
    have stop := congrArg IndexRange.stop same
    simp only at stop
    omega
  have replaced : replacing? (edit :: edits) edit.range.start = some edit :=
    List.find?_cons_of_pos (by rw [decide_eq_true_eq]; omega)
  have size : edit.range.stop - (edit.range.start + 1) = removed.length := by omega
  rw [List.cons_append, walk, insertions_cons_of_ne noInsertion, insertions_eq_nil behind,
    replaced, List.flatMap_nil, List.nil_append]
  simp only
  rw [size, List.drop_left, walk_cons_of_lt (by omega)]

/-- The walk makes the first edit where it starts. -/
theorem walk_cons {removed rest : List Token}
    (place : edit.range.start + removed.length = edit.range.stop)
    (behind : ∀ other ∈ edits, edit.range.stop ≤ other.range.start) :
    walk (edit :: edits) edit.range.start (removed ++ rest) =
      edit.replacement ++ walk edits edit.range.stop rest := by
  cases removed with
  | nil =>
      have start : edit.range.start = edit.range.stop := place
      rw [start, List.nil_append]
      exact walk_insertion (congrArg (IndexRange.mk · edit.range.stop) start)
  | cons token removed =>
      refine walk_replacement place fun other member => ?_
      have bound := behind other member
      rw [List.length_cons] at place
      omega

end Walks

/-- For edits from left to right, the walk is what the splices come to. -/
theorem walk_eq_rebuilt {edits : List Edit} {stream : TokenStream} {start : Nat}
    (inOrder : InOrder edits stream) (behind : ∀ edit ∈ edits, start ≤ edit.range.start) :
    walk edits start (stream.drop start) = rebuilt stream start edits := by
  induction edits generalizing start with
  | nil =>
      have kept := @walk_append [] start _ (stream.drop start) [] rfl (by simp)
      rw [List.append_nil] at kept
      rw [kept, walk, rebuilt]
      simp [insertions]
  | cons edit edits ih =>
      obtain ⟨ordered, inside⟩ := inOrder.proper edit (by simp)
      have first := behind edit (by simp)
      have apart := (List.pairwise_cons.mp inOrder.apart).1
      have place : start + (stream.slice ⟨start, edit.range.start⟩).length = edit.range.start := by
        rw [TokenStream.length_slice]
        simp only
        omega
      have length : edit.range.start + (stream.slice edit.range).length = edit.range.stop := by
        rw [TokenStream.length_slice]
        omega
      have firstBehind : ∀ other ∈ edit :: edits, edit.range.start ≤ other.range.start :=
        List.forall_mem_cons.mpr ⟨Nat.le_refl _, fun other member =>
          Nat.le_trans ordered (apart other member)⟩
      rw [stream.drop_eq_slices first ordered inside, walk_append place firstBehind,
        walk_cons length apart, ih inOrder.tail apart, rebuilt, List.append_assoc]

/-- Sorting keeps insertions at one index in the order in which they are recorded. -/
theorem insertions_sorted (edits : List Edit) (index : Nat) :
    insertions (sorted edits) index = insertions edits index := by
  have inOrder : (insertions edits index).Pairwise fun left right => left.comesBefore right := by
    refine List.pairwise_of_forall_mem_list fun left inLeft right inRight => ?_
    have atLeft := (List.mem_filter.mp inLeft).2
    have atRight := (List.mem_filter.mp inRight).2
    rw [decide_eq_true_eq] at atLeft atRight
    rw [comesBefore_iff, atLeft, atRight]
    omega
  have kept : (insertions edits index).Sublist (sorted edits) :=
    List.sublist_mergeSort comesBefore_trans comesBefore_total inOrder List.filter_sublist
  -- As many of the sorted edits are insertions here, so the sublist is all of them.
  have filtered := kept.filter (·.range = ⟨index, index⟩)
  rw [insertions, List.filter_filter] at filtered
  simp only [Bool.and_self] at filtered
  exact (filtered.eq_of_length ((sorted_perm edits).filter _).length_eq.symm).symm

/-- In a batch without overlaps, at most one edit replaces a token. -/
theorem Clear.replacing?_eq_some_iff {edits : List Edit} (clear : Clear edits) {index : Nat}
    {edit : Edit} : replacing? edits index = some edit ↔
      edit ∈ edits ∧ edit.range.start = index ∧ index < edit.range.stop := by
  refine ⟨bounds_of_replacing?, ?_⟩
  rintro ⟨member, start, nonempty⟩
  have some : (replacing? edits index).isSome = true :=
    List.find?_isSome.mpr ⟨edit, member, by rw [decide_eq_true_eq]; exact ⟨start, nonempty⟩⟩
  obtain ⟨other, found⟩ := Option.isSome_iff_exists.mp some
  obtain ⟨inEdits, otherStart, otherNonempty⟩ := bounds_of_replacing? found
  by_cases same : other = edit
  · rw [found, same]
  · have symmetric : Std.Symm fun left right : Edit => ¬ left.range.Overlap right.range :=
      ⟨fun _ _ free overlap => free overlap.symm⟩
    exact absurd (.shared index (by omega) (by omega)) (clear.forall inEdits member same)

theorem replacing?_perm {edits others : List Edit} (clear : Clear edits) (perm : edits.Perm others)
    (index : Nat) : replacing? edits index = replacing? others index := by
  refine Option.ext fun edit => ?_
  rw [clear.replacing?_eq_some_iff, (clear.perm perm).replacing?_eq_some_iff, perm.mem_iff]

theorem applyAll_of_clear {edits : List Edit} {stream : TokenStream}
    (proper : ∀ edit ∈ edits, edit.range.start ≤ edit.range.stop ∧ edit.range.stop ≤ stream.length)
    (none : conflict? edits = none) : applyAll edits stream = .ok (walk edits 0 stream) := by
  have ordered : ∀ edit ∈ edits, edit.range.start ≤ edit.range.stop :=
    fun edit member => (proper edit member).1
  have inOrder : InOrder (sorted edits) stream := ⟨pairwise_apart_sorted ordered none,
    fun edit member => proper edit ((sorted_perm edits).subset member)⟩
  have clear := (conflict?_eq_none_iff ordered).mp none
  have walked := walk_eq_rebuilt inOrder fun edit _ => Nat.zero_le edit.range.start
  have same : walk (sorted edits) 0 stream = walk edits 0 stream :=
    walk_congr (fun place _ => insertions_sorted edits place) fun place _ =>
      (replacing?_perm clear (sorted_perm edits).symm place).symm
  rw [applyAll_eq_rebuilt inOrder none, ← walked, List.drop_zero, same]

/-- A batch without conflicts comes to one walk over the stream, however edits with different ranges
are mixed in it. A batch with a conflict comes to the conflict and to no new stream. -/
theorem applyAll_eq_walk (edits : List Edit) (stream : TokenStream)
    (proper : ∀ edit ∈ edits,
      edit.range.start ≤ edit.range.stop ∧ edit.range.stop ≤ stream.length) :
    (conflict? edits = none →
      applyAll edits stream = .ok (walk edits 0 stream) ∧
        ∀ others : List Edit, others.Perm edits →
          (∀ index, insertions others index = insertions edits index) →
            applyAll others stream = applyAll edits stream) ∧
      ∀ conflict, conflict? edits = some conflict → applyAll edits stream = .error conflict := by
  constructor
  · intro none
    have applied := applyAll_of_clear proper none
    refine ⟨applied, fun others perm inserted => ?_⟩
    have clear := (conflict?_eq_none_iff fun edit member => (proper edit member).1).mp none
    have properOthers : ∀ edit ∈ others,
        edit.range.start ≤ edit.range.stop ∧ edit.range.stop ≤ stream.length :=
      fun edit member => proper edit (perm.subset member)
    have noneOthers := (conflict?_eq_none_iff fun edit member => (properOthers edit member).1).mpr
      (clear.perm perm.symm)
    rw [applied, applyAll_of_clear properOthers noneOthers]
    refine congrArg Except.ok (walk_congr (fun place _ => inserted place) fun place _ => ?_)
    exact (replacing?_perm clear perm.symm place).symm
  · intro conflict found
    rw [applyAll, found]

def letter (character : Char) : Token :=
  ⟨.identifier, [character], 1⟩

/-- Two insertions at one index, where a replacement starts, and one behind all tokens. -/
def mixedBatch : List Edit :=
  [insertion 4 [letter 'x'], ⟨⟨1, 3⟩, [letter 'y']⟩, insertion 1 [letter 'u'],
   insertion 1 [letter 'v'], ⟨⟨3, 4⟩, []⟩]

/-- The same edits, recorded in another order. -/
def reorderedBatch : List Edit :=
  [insertion 1 [letter 'u'], ⟨⟨3, 4⟩, []⟩, insertion 1 [letter 'v'], ⟨⟨1, 3⟩, [letter 'y']⟩,
   insertion 4 [letter 'x']]

theorem applyAll_eq_walk_mixedBatch :
    (∀ edit ∈ mixedBatch, edit.range.start ≤ edit.range.stop ∧
        edit.range.stop ≤ ("abcd".toList.map letter).length) ∧
      conflict? mixedBatch = none ∧ reorderedBatch.Perm mixedBatch ∧
      (∀ index, insertions reorderedBatch index = insertions mixedBatch index) ∧
      applyAll reorderedBatch ("abcd".toList.map letter) = .ok ("auvyx".toList.map letter) ∧
      (∀ edit ∈ insertionInside, edit.range.start ≤ edit.range.stop ∧
        edit.range.stop ≤ ("abcdef".toList.map letter).length) ∧
      conflict? insertionInside = some ⟨⟨2, 6⟩, ⟨3, 3⟩⟩ ∧
      applyAll insertionInside ("abcdef".toList.map letter) = .error ⟨⟨2, 6⟩, ⟨3, 3⟩⟩ := by
  have proper : ∀ edit ∈ mixedBatch, edit.range.start ≤ edit.range.stop ∧
      edit.range.stop ≤ ("abcd".toList.map letter).length := by decide
  have properInside : ∀ edit ∈ insertionInside, edit.range.start ≤ edit.range.stop ∧
      edit.range.stop ≤ ("abcdef".toList.map letter).length := by decide
  have none : conflict? mixedBatch = none := by cbv
  have found : conflict? insertionInside = some ⟨⟨2, 6⟩, ⟨3, 3⟩⟩ := by cbv
  have perm : reorderedBatch.Perm mixedBatch := by decide
  have inserted (index : Nat) : insertions reorderedBatch index = insertions mixedBatch index := by
    by_cases atOne : 1 = index
    · subst atOne
      rfl
    · by_cases atFour : 4 = index
      · subst atFour
        rfl
      · simp [insertions, reorderedBatch, mixedBatch, insertion, atOne, atFour]
  obtain ⟨applied, reordered⟩ := (applyAll_eq_walk mixedBatch _ proper).1 none
  have walked : walk mixedBatch 0 ("abcd".toList.map letter) = "auvyx".toList.map letter := by
    cbv
  refine ⟨proper, none, perm, inserted, ?_, properInside, found,
    (applyAll_eq_walk insertionInside _ properInside).2 _ found⟩
  rw [reordered reorderedBatch perm inserted, applied, walked]

end Edit

end ConstructorInjection
