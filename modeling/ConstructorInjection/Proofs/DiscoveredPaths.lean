import Mathlib.Data.List.Basic
import Mathlib.Tactic.Common
import ConstructorInjection.Proofs.SourcePaths

/-!
Discovered paths are sorted, and no path comes twice. Two paths of one file differ where two
arguments do: what is found below an argument goes on from its spelling.
-/

namespace ConstructorInjection

namespace Path

/-! The order of paths is that of lists of lists of numbers. -/

def Component.key : Component → List Nat
  | root => [0]
  | here => [1]
  | up => [2]
  | name characters => 3 :: characters.map Char.toNat

def Component.isName : Component → Bool
  | name _ => true
  | _ => false

theorem compare_text (left right : Text) :
    Text.compare left right = Ord.compare (left.map Char.toNat) (right.map Char.toNat) := by
  induction left generalizing right with
  | nil => cases right <;> rfl
  | cons first left ih =>
      cases right with
      | nil => rfl
      | cons other right =>
          rw [Text.compare, ih, List.map_cons, List.map_cons, List.compare_cons_cons]

theorem compare_component (left right : Component) :
    left.compare right = Ord.compare left.key right.key := by
  cases left <;> cases right
  case name.name left right =>
    simp [Component.compare, Component.key, compare_text, List.compare_cons_cons]
  all_goals rfl

theorem compareComponents_eq (left right : List Component) :
    compareComponents left right =
      Ord.compare (left.map Component.key) (right.map Component.key) := by
  induction left generalizing right with
  | nil => cases right <;> rfl
  | cons first left ih =>
      cases right with
      | nil => rfl
      | cons other right =>
          rw [compareComponents, ih, compare_component, List.map_cons, List.map_cons,
            List.compare_cons_cons]

theorem injective_toNat : Function.Injective Char.toNat :=
  fun _ _ same => Char.toNat_inj.mp same

theorem injective_key : Function.Injective Component.key := by
  intro left right same
  cases left <;> cases right <;> simp_all [Component.key, injective_toNat.list_map.eq_iff]

def key (path : Text) : List (List Nat) :=
  (components path).map Component.key

theorem compare_eq (left right : Text) : compare left right = Ord.compare (key left) (key right) :=
  compareComponents_eq _ _

/-- Paths rank the same when their components are the same. -/
theorem compare_eq_eq_iff {left right : Text} :
    compare left right = .eq ↔ components left = components right := by
  rw [compare_eq, Std.LawfulEqOrd.compare_eq_iff_eq, key, key, injective_key.list_map.eq_iff]

instance : Std.TransCmp compare where
  eq_swap := by
    intro left right
    rw [compare_eq, compare_eq]
    exact Std.OrientedCmp.eq_swap
  isLE_trans := by
    intro first second third
    rw [compare_eq, compare_eq, compare_eq]
    exact Std.TransCmp.isLE_trans

/-! A path below another one goes on from its components. -/

variable {path name : Text}

/-- What the components of a path begin with, before its names. -/
def front : List Text → List Component
  | [] :: _ :: _ => [.root]
  | first :: _ => if first = "." then [.here] else []
  | [] => []

def isKept (segment : Text) : Bool :=
  segment ≠ [] ∧ segment ≠ ("." : Text)

def component (segment : Text) : Component :=
  if segment = (".." : Text) then .up else .name segment

theorem components_eq (path : Text) :
    components path = front (Text.splitAtEach '/' path) ++
      ((Text.splitAtEach '/' path).filter isKept).map component :=
  rfl

theorem splitAtEach_ne_singleton (isPath : path ≠ []) : Text.splitAtEach '/' path ≠ [[]] := by
  obtain ⟨first, rest, rfl⟩ := List.exists_cons_of_ne_nil isPath
  obtain ⟨part, parts, cut⟩ := List.exists_cons_of_ne_nil (Text.splitAtEach_ne_nil '/' rest)
  rw [Text.splitAtEach, cut]
  split <;> simp

theorem front_append {segments : List Text} (nonempty : segments ≠ []) (named : segments ≠ [[]])
    (last : Text) : front (segments ++ [last]) = front segments := by
  obtain ⟨first, others, rfl⟩ := List.exists_cons_of_ne_nil nonempty
  cases first with
  | nil =>
      cases others with
      | nil => contradiction
      | cons second others => rfl
  | cons character first => rfl

theorem root_or_here_of_mem_front {segments : List Text} {component : Component}
    (member : component ∈ front segments) : component = .root ∨ component = .here := by
  unfold front at member
  split at member
  next => exact .inl (List.mem_singleton.mp member)
  next =>
    split at member
    next => exact .inr (List.mem_singleton.mp member)
    next => contradiction
  next => contradiction

theorem components_join (isPath : path ≠ []) (isStep : IsStep name) :
    components (join path name) = components path ++ [.name name] := by
  obtain ⟨isName, notHere, notUp⟩ := isStep
  obtain ⟨segments, whole, cut⟩ := splitAtEach_join isPath isName
  have kept : isKept name = true := decide_eq_true ⟨isName.1, notHere⟩
  have named : component name = .name name := if_neg notUp
  have isSplit := splitAtEach_ne_singleton isPath
  have sameFront : front (segments ++ [name]) = front (Text.splitAtEach '/' path) := by
    rcases cut with cut | cut
    · rw [cut] at isSplit ⊢
      exact front_append (cut ▸ Text.splitAtEach_ne_nil '/' path) isSplit name
    · rw [cut] at isSplit ⊢
      cases segments with
      | nil => contradiction
      | cons first segments => cases first <;> cases segments <;> rfl
  have sameKept : (Text.splitAtEach '/' path).filter isKept = segments.filter isKept := by
    rcases cut with cut | cut
    · rw [cut]
    · rw [cut, List.filter_append]
      exact List.append_nil _
  rw [components_eq, components_eq, whole, sameFront, sameKept, List.filter_append,
    List.filter_singleton, kept, cond_true, List.map_append, List.map_singleton, named,
    List.append_assoc]

theorem components_below {names : List Text} (isPath : path ≠ [])
    (areSteps : ∀ name ∈ names, IsStep name) :
    components (below path names) = components path ++ names.map .name := by
  induction names generalizing path with
  | nil => simp
  | cons name names ih =>
      obtain ⟨isStep, areSteps⟩ := List.forall_mem_cons.mp areSteps
      rw [below_cons, ih (join_ne_nil path isStep.1) areSteps, components_join isPath isStep]
      simp

end Path

/-- In sorted paths, what comes behind two different ones comes behind the first of them. -/
theorem lt_of_sorted {first second : Text} {rest : List Text}
    (sorted : (first :: second :: rest).Pairwise fun left right =>
      (Path.compare left right).isLE = true)
    (different : Path.compare first second ≠ .eq) :
    ∀ path ∈ second :: rest, Path.compare first path = .lt := by
  obtain ⟨fromFirst, later⟩ := List.pairwise_cons.mp sorted
  have near : Path.compare first second = .lt :=
    (Ordering.isLE_iff_eq_lt_or_eq_eq.mp (fromFirst second (by simp))).resolve_right different
  refine List.forall_mem_cons.mpr ⟨near, fun path behind => ?_⟩
  exact Std.TransCmp.lt_of_lt_of_isLE near ((List.pairwise_cons.mp later).1 path behind)

/-- Once paths are sorted, equal ones are neighbours. -/
theorem pairwise_dropRepeated {paths : List Text}
    (sorted : paths.Pairwise fun left right => (Path.compare left right).isLE = true) :
    (dropRepeated paths).Pairwise fun left right => Path.compare left right = .lt := by
  induction paths using dropRepeated.induct with
  | case1 first second rest same ih =>
      rw [dropRepeated, if_pos same]
      exact ih (sorted.sublist ((List.sublist_cons_self second rest).cons_cons first))
  | case2 first second rest different ih =>
      rw [dropRepeated, if_neg different]
      refine List.pairwise_cons.mpr ⟨fun path member => ?_, ih (List.pairwise_cons.mp sorted).2⟩
      exact lt_of_sorted sorted different path ((dropRepeated_sublist _).subset member)
  | case3 paths short =>
      rw [dropRepeated.eq_2 _ short]
      cases paths with
      | nil => exact .nil
      | cons first rest =>
          cases rest with
          | nil => exact List.pairwise_singleton _ _
          | cons second rest => exact absurd rfl (short first second rest)

namespace Path

theorem compare_bne_gt (left right : Text) :
    (compare left right != .gt) = (compare left right).isLE :=
  Ordering.isLE_eq_not_beq_gt.symm

theorem isLE_total (left right : Text) :
    ((compare left right).isLE || (compare right left).isLE) = true := by
  rw [Bool.or_eq_true, or_iff_not_imp_left]
  intro behind
  exact Ordering.isLE_of_eq_lt (Std.OrientedCmp.lt_of_not_isLE behind)

theorem pairwise_mergeSort (paths : List Text) :
    (paths.mergeSort fun left right => compare left right != .gt).Pairwise fun left right =>
      (compare left right).isLE = true := by
  simp only [compare_bne_gt]
  exact List.pairwise_mergeSort (fun _ _ _ => Std.TransCmp.isLE_trans) isLE_total paths

end Path

/-- The discovered files are in strictly ascending order. -/
theorem pairwise_lt_discover (tree : Listing) (paths : List Text) :
    (discover tree paths).files.Pairwise fun left right => Path.compare left right = .lt :=
  pairwise_dropRepeated (Path.pairwise_mergeSort _)

/-! Paths that lead to the same file. -/

namespace Listing

variable {tree : Listing} {path file : Text} {names found : List Text}

/-- Where an argument leads below another one, it is spelled like that one with names behind it. -/
def SpelledAlike (tree : Listing) (paths : List Text) : Prop :=
  ∀ first ∈ paths, ∀ second ∈ paths, ∀ start names, tree.namesOf first = .ok start →
    tree.namesOf second = .ok (start ++ names) →
      Path.components second = Path.components first ++ names.map .name

/-- What an argument asks for lies below it. -/
theorem below_of_mem_filesOf (isTree : tree.IsTree) (member : file ∈ filesOf tree path) :
    ∃ start names, tree.namesOf path = .ok start ∧ file = Path.below path names ∧
      ∀ name ∈ names, IsStep name := by
  rw [filesOf, lookup] at member
  cases led : tree.namesOf path with
  | error cause => simp [led] at member
  | ok start =>
      simp only [led] at member
      cases reached : tree.entryAt? start with
      | none => simp [reached] at member
      | some entry =>
          rw [reached] at member
          cases entry with
          | file content => exact ⟨start, [], rfl, List.mem_singleton.mp member, by simp⟩
          | directory inside =>
              simp only [sources_eq, List.mem_map] at member
              obtain ⟨names, isSource, rfl⟩ := member
              exact ⟨start, names, rfl, rfl,
                isStep_of_mem_sourceNames (isTree_of_entryAt? isTree reached) isSource⟩

/-- Sources below arguments that are spelled alike have the same path when they are the same
file. -/
theorem SpelledAlike.components_eq {paths : List Text} (alike : tree.SpelledAlike paths)
    {first second : Text} {start later front rest : List Text} (isFirst : first ∈ paths)
    (isSecond : second ∈ paths) (led : tree.namesOf first = .ok start)
    (ledSecond : tree.namesOf second = .ok (start ++ front))
    (steps : ∀ name ∈ later, IsStep name) (stepsSecond : ∀ name ∈ rest, IsStep name)
    (same : later = front ++ rest) :
    Path.components (Path.below first later) = Path.components (Path.below second rest) := by
  have isPath := (follow_of_namesOf led).1
  have isPathSecond := (follow_of_namesOf ledSecond).1
  rw [Path.components_below isPath steps, Path.components_below isPathSecond stepsSecond,
    alike first isFirst second isSecond start front led ledSecond, same, List.map_append,
    List.append_assoc]

theorem SpelledAlike.pairwise_apart {paths : List Text} (isTree : tree.IsTree)
    (alike : tree.SpelledAlike paths) : (discover tree paths).files.Pairwise tree.Apart := by
  have argument {file : Text} (member : file ∈ (discover tree paths).files) :
      ∃ path ∈ paths, file ∈ filesOf tree path := by
    have sorted := (dropRepeated_sublist _).subset member
    exact List.mem_flatMap.mp (List.mem_mergeSort.mp sorted)
  refine (pairwise_lt_discover tree paths).imp_of_mem ?_
  intro first second inFirst inSecond before names leads also
  have different : Path.components first ≠ Path.components second := by
    intro same
    rw [Path.compare_eq_eq_iff.mpr same] at before
    contradiction
  obtain ⟨path, isPath, fromPath⟩ := argument inFirst
  obtain ⟨other, isOther, fromOther⟩ := argument inSecond
  obtain ⟨start, later, led, rfl, steps⟩ := below_of_mem_filesOf isTree fromPath
  obtain ⟨begin, rest, ledOther, rfl, stepsOther⟩ := below_of_mem_filesOf isTree fromOther
  have whole := namesOf_below led steps leads
  rw [namesOf_below ledOther stepsOther also] at whole
  -- Of two ways to one place, one goes through the other's argument.
  rcases List.append_eq_append_iff.mp whole with ⟨middle, rfl, rfl⟩ | ⟨middle, rfl, rfl⟩
  · exact different (alike.components_eq isOther isPath ledOther led stepsOther steps rfl).symm
  · exact different (alike.components_eq isPath isOther led ledOther steps stepsOther rfl)

/-! Arguments made of names only. -/

theorem follow_names {segments : List Text} (noUp : ∀ segment ∈ segments, segment ≠ "..")
    (followed : tree.follow names segments = .ok found) :
    found = names ++ segments.filter Path.isKept := by
  induction segments generalizing names with
  | nil =>
      cases followed
      exact (List.append_nil _).symm
  | cons segment segments ih =>
      obtain ⟨notUp, noUp⟩ := List.forall_mem_cons.mp noUp
      obtain ⟨inside, reached⟩ := entryAt?_of_follow_cons followed
      rw [follow, reached] at followed
      simp only [notUp, if_false] at followed
      split at followed
      next passed =>
        have dropped : Path.isKept segment = false := by
          rw [Path.isKept, decide_eq_false_iff_not]
          tauto
        rw [ih noUp followed, List.filter_cons, dropped]
        rfl
      next kept =>
        have isKept : Path.isKept segment = true := by
          rw [Path.isKept, decide_eq_true_eq]
          tauto
        split at followed
        · contradiction
        · split at followed
          · rw [ih noUp followed, List.filter_cons, isKept, List.append_assoc]
            rfl
          · contradiction

/-- A path without dots leads to the place that it spells out. -/
theorem components_of_names (led : tree.namesOf path = .ok names)
    (plain : ∀ component ∈ Path.components path, component.isName = true) :
    Path.components path = names.map .name := by
  rw [Path.components_eq] at plain ⊢
  obtain ⟨plainFront, plainKept⟩ := List.forall_mem_append.mp plain
  have noFront : Path.front (Text.splitAtEach '/' path) = [] := by
    refine List.eq_nil_iff_forall_not_mem.mpr fun component member => ?_
    have isName := plainFront component member
    rcases Path.root_or_here_of_mem_front member with rfl | rfl
    · contradiction
    · contradiction
  have named : ∀ segment ∈ (Text.splitAtEach '/' path).filter Path.isKept,
      segment ≠ ".." ∧ Path.component segment = .name segment := by
    intro segment member
    have isName := plainKept _ (List.mem_map_of_mem member)
    rw [Path.component] at isName ⊢
    split at isName
    next => contradiction
    next notUp => exact ⟨notUp, if_neg notUp⟩
  have noUp : ∀ segment ∈ Text.splitAtEach '/' path, segment ≠ ".." := by
    rintro segment member rfl
    exact (named _ (List.mem_filter.mpr ⟨member, by decide⟩)).1 rfl
  have whole := follow_names noUp (follow_of_namesOf led).2
  rw [List.nil_append] at whole
  rw [noFront, List.nil_append, whole]
  exact List.map_congr_left fun segment member => (named segment member).2

theorem spelledAlike_of_names {paths : List Text}
    (plain : ∀ path ∈ paths, ∀ component ∈ Path.components path, component.isName = true) :
    tree.SpelledAlike paths := by
  intro first isFirst second isSecond start names led ledSecond
  rw [components_of_names led (plain first isFirst),
    components_of_names ledSecond (plain second isSecond), List.map_append]

end Listing

section OverlappingArguments

/-- A directory with two sources. -/
def twoSources : Listing :=
  .directory "src" (.file "a.php" (.text "<?php\n") (.file "b.php" (.text "<?php\n") .empty)) .empty

theorem discover_overlappingArguments :
    (discover twoSources ["src", "src/b.php"]).files =
      ["src/a.php".toList, "src/b.php".toList] := by
  rw [discover_files_of_sorted]
  · decide +kernel
  · decide +kernel

/-- A source in the working directory. -/
def oneSource : Listing :=
  .file "a.php" (.text "<?php\n") .empty

theorem discover_dotArgument :
    (discover oneSource [".", "a.php"]).files = ["./a.php".toList, "a.php".toList] := by
  rw [discover_files_of_sorted]
  · decide +kernel
  · decide +kernel

end OverlappingArguments

end ConstructorInjection
