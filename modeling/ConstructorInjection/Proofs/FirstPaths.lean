import Mathlib.Data.List.Basic
import Mathlib.Data.List.Nodup
import Mathlib.Tactic.Common
import ConstructorInjection.Proofs.DiscoveredPaths

/-!
Of the paths that have the same components, the one that is found first is kept. So what is
discovered does not depend on the order in which the sources below one argument are found.
-/

namespace ConstructorInjection

/-- Whether a path has the components of another one. -/
def isLike (file path : Text) : Bool :=
  Path.components path = Path.components file

section Sorting

variable {paths : List Text}

/-- Sorting leaves paths with the same components in their order. -/
theorem filter_mergeSort (paths : List Text) (file : Text) :
    (paths.mergeSort fun left right => Path.compare left right != .gt).filter (isLike file) =
      paths.filter (isLike file) := by
  simp only [Path.compare_bne_gt]
  have alike : (paths.filter (isLike file)).Pairwise fun left right =>
      (Path.compare left right).isLE = true := by
    refine List.pairwise_of_forall_mem_list fun left isLeft right isRight => ?_
    have sameLeft := of_decide_eq_true (List.mem_filter.mp isLeft).2
    have sameRight := of_decide_eq_true (List.mem_filter.mp isRight).2
    rw [Path.compare_eq_eq_iff.mpr (sameLeft.trans sameRight.symm)]
    rfl
  have kept := List.sublist_mergeSort (fun _ _ _ => Std.TransCmp.isLE_trans) Path.isLE_total alike
    List.filter_sublist
  have sorted := kept.filter (isLike file)
  rw [List.filter_filter] at sorted
  simp only [Bool.and_self] at sorted
  refine (sorted.eq_of_length ?_).symm
  exact ((List.mergeSort_perm paths _).filter (isLike file)).length_eq.symm

/-- Of sorted paths, the first with its components is kept. -/
theorem mem_dropRepeated_iff
    (sorted : paths.Pairwise fun left right => (Path.compare left right).isLE = true)
    {file : Text} : file ∈ dropRepeated paths ↔ paths.find? (isLike file) = some file := by
  induction paths using dropRepeated.induct with
  | case1 first second rest same ih =>
      have later := sorted.sublist ((List.sublist_cons_self second rest).cons_cons first)
      rw [dropRepeated, if_pos same, ih later, List.find?_cons, List.find?_cons, List.find?_cons]
      have alike : isLike file first = isLike file second := by
        rw [isLike, isLike, Path.compare_eq_eq_iff.mp same]
      rw [← alike]
      cases isLike file first <;> rfl
  | case2 first second rest different ih =>
      rw [dropRepeated, if_neg different, List.mem_cons, ih (List.pairwise_cons.mp sorted).2]
      by_cases alike : isLike file first = true
      · rw [List.find?_cons_of_pos alike, Option.some.injEq, eq_comm, or_iff_left]
        intro found
        have behind := lt_of_sorted sorted different file (List.mem_of_find?_eq_some found)
        rw [Path.compare_eq_eq_iff.mpr (of_decide_eq_true alike)] at behind
        contradiction
      · rw [List.find?_cons_of_neg alike, or_iff_right]
        rintro rfl
        simp [isLike] at alike
  | case3 paths short =>
      rw [dropRepeated.eq_2 _ short]
      cases paths with
      | nil => simp
      | cons first rest =>
          cases rest with
          | nil =>
              by_cases same : file = first
              · simp [same, isLike]
              · simp [same, Ne.symm same]
          | cons second rest => exact absurd rfl (short first second rest)

end Sorting

/-- Discovered is what is the first of the found paths with its components. -/
theorem mem_discover_iff {tree : Listing} {paths : List Text} {file : Text} :
    file ∈ (discover tree paths).files ↔
      (paths.flatMap (filesOf tree)).find? (isLike file) = some file := by
  rw [discover, mem_dropRepeated_iff (Path.pairwise_mergeSort _), ← List.head?_filter,
    filter_mergeSort, List.head?_filter]

theorem isLike_eq {file same : Text} (alike : isLike file same = true) : isLike same = isLike file := by
  funext path
  rw [isLike, isLike, of_decide_eq_true alike]

/-- Every path that is found is discovered, up to its spelling. -/
theorem exists_discovered {tree : Listing} {paths : List Text} {file : Text}
    (found : file ∈ paths.flatMap (filesOf tree)) :
    ∃ same ∈ (discover tree paths).files, Path.compare same file = .eq := by
  have isThere : ((paths.flatMap (filesOf tree)).find? (isLike file)).isSome = true :=
    List.find?_isSome.mpr ⟨file, found, decide_eq_true rfl⟩
  obtain ⟨same, isFirst⟩ := Option.isSome_iff_exists.mp isThere
  have alike := List.find?_some isFirst
  refine ⟨same, mem_discover_iff.mpr ?_, Path.compare_eq_eq_iff.mpr (of_decide_eq_true alike)⟩
  rw [isLike_eq alike, isFirst]

/-! The order in which sources are found. -/

theorem find?_eq_of_mem_iff {α : Type} {test : α → Bool} {left right : List α}
    (unique : ∀ first ∈ left, ∀ second ∈ left, test first = true → test second = true →
      first = second)
    (same : ∀ value, value ∈ left ↔ value ∈ right) : left.find? test = right.find? test := by
  cases found : left.find? test with
  | none =>
      rw [List.find?_eq_none] at found
      refine (List.find?_eq_none.mpr fun value member => ?_).symm
      exact found value ((same value).mpr member)
  | some first =>
      have passes := List.find?_some found
      have member := List.mem_of_find?_eq_some found
      have isThere := List.find?_isSome.mpr ⟨first, (same first).mp member, passes⟩
      obtain ⟨second, also⟩ := Option.isSome_iff_exists.mp isThere
      rw [also]
      have inLeft := (same second).mpr (List.mem_of_find?_eq_some also)
      rw [unique first member second inLeft passes (List.find?_some also)]

/-- Strictly ascending paths are determined by which they are. -/
theorem eq_of_pairwise_lt {left right : List Text}
    (ascends : left.Pairwise fun first second => Path.compare first second = .lt)
    (ascendsToo : right.Pairwise fun first second => Path.compare first second = .lt)
    (same : ∀ path, path ∈ left ↔ path ∈ right) : left = right := by
  have nodup {paths : List Text}
      (ascends : paths.Pairwise fun first second => Path.compare first second = .lt) :
      paths.Nodup := by
    refine ascends.imp fun before equal => ?_
    rw [equal, Path.compare_eq_eq_iff.mpr rfl] at before
    contradiction
  refine List.Perm.eq_of_pairwise ?_ ascends ascendsToo
    ((List.perm_ext_iff_of_nodup (nodup ascends) (nodup ascendsToo)).mpr same)
  intro first second _ _ before behind
  rw [@Std.OrientedCmp.eq_swap _ Path.compare _ first second, behind] at before
  contradiction

/-- Two trees with the same files below each argument have the same discovered files. -/
theorem discover_files_eq {tree other : Listing} {paths : List Text}
    (same : ∀ path ∈ paths, ∀ file, file ∈ filesOf tree path ↔ file ∈ filesOf other path)
    (unique : ∀ path ∈ paths, ∀ first ∈ filesOf tree path, ∀ second ∈ filesOf tree path,
      Path.components first = Path.components second → first = second) :
    (discover tree paths).files = (discover other paths).files := by
  refine eq_of_pairwise_lt (pairwise_lt_discover _ _) (pairwise_lt_discover _ _) fun file => ?_
  rw [mem_discover_iff, mem_discover_iff]
  suffices (paths.flatMap (filesOf tree)).find? (isLike file) =
      (paths.flatMap (filesOf other)).find? (isLike file) by rw [this]
  induction paths with
  | nil => rfl
  | cons path paths ih =>
      rw [List.forall_mem_cons] at same unique
      rw [List.flatMap_cons, List.flatMap_cons, List.find?_append, List.find?_append,
        ih same.2 unique.2]
      congr 1
      refine find?_eq_of_mem_iff ?_ same.1
      intro first isFirst second isSecond alike alikeToo
      exact unique.1 first isFirst second isSecond
        ((of_decide_eq_true alike).trans (of_decide_eq_true alikeToo).symm)

end ConstructorInjection
