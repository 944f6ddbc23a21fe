import Mathlib.Data.List.Basic
import Mathlib.Data.List.Nodup
import Mathlib.Tactic.Common
import ConstructorInjection.Discovery
import ConstructorInjection.Proofs.FileTrees

/-!
Where the paths of discovered sources lead. Below one argument, no two of them lead to the same
file.
-/

namespace ConstructorInjection

namespace Text

theorem splitAtEach_ne_nil (separator : Char) (text : Text) : splitAtEach separator text ≠ [] := by
  induction text with
  | nil => simp [splitAtEach]
  | cons first rest ih =>
      rw [splitAtEach]
      split
      · simp
      · simpa using ih

theorem splitAtEach_append_cons (separator : Char) (left right : Text) :
    splitAtEach separator (left ++ separator :: right) =
      splitAtEach separator left ++ splitAtEach separator right := by
  induction left with
  | nil => simp [splitAtEach]
  | cons first left ih =>
      rw [List.cons_append, splitAtEach, splitAtEach]
      split
      · rw [ih, List.cons_append]
      · obtain ⟨part, parts, cut⟩ := List.exists_cons_of_ne_nil (splitAtEach_ne_nil separator left)
        rw [ih, cut]
        rfl

theorem splitAtEach_of_notMem {separator : Char} {text : Text} (absent : separator ∉ text) :
    splitAtEach separator text = [text] := by
  induction text with
  | nil => rfl
  | cons first rest ih =>
      simp only [List.mem_cons, not_or] at absent
      rw [splitAtEach, if_neg (Ne.symm absent.1), ih absent.2]
      rfl

end Text

/-- Directories list names of at least one character and without a slash. -/
def IsEntryName (name : Text) : Prop :=
  name ≠ [] ∧ '/' ∉ name

/-- The listings that file systems have: each name stands once in its directory. -/
def Listing.IsTree : Listing → Prop
  | empty => True
  | file name _ others => IsEntryName name ∧ others.entryNamed? name = none ∧ others.IsTree
  | directory name inside others =>
    IsEntryName name ∧ others.entryNamed? name = none ∧ inside.IsTree ∧ others.IsTree

instance IsEntryName.decidable (name : Text) : Decidable (IsEntryName name) :=
  inferInstanceAs (Decidable (_ ∧ _))

instance Listing.IsTree.decidable : (listing : Listing) → Decidable listing.IsTree
  | .empty => .isTrue trivial
  | .file _ _ others =>
    have := decidable others
    inferInstanceAs (Decidable (_ ∧ _))
  | .directory _ inside others =>
    have := decidable inside
    have := decidable others
    inferInstanceAs (Decidable (_ ∧ _))

/-- A name that leads into a directory or to a file, and nowhere else. -/
def IsStep (name : Text) : Prop :=
  IsEntryName name ∧ name ≠ "." ∧ name ≠ ".."

/-- The path of an entry some names below a directory. -/
def Path.below (path : Text) (names : List Text) : Text :=
  names.foldl join path

namespace Path

variable {path name : Text}

@[simp]
theorem below_nil (path : Text) : below path [] = path :=
  rfl

@[simp]
theorem below_cons (path name : Text) (names : List Text) :
    below path (name :: names) = below (join path name) names :=
  rfl

theorem join_ne_nil (path : Text) (isName : IsEntryName name) : join path name ≠ [] := by
  rw [join]
  split <;> simp [isName.1]

/-- The segments of a path into a directory are those of the directory, where a slash at its end
makes no segment. -/
theorem splitAtEach_join (isPath : path ≠ []) (isName : IsEntryName name) :
    ∃ segments, Text.splitAtEach '/' (join path name) = segments ++ [name] ∧
      (Text.splitAtEach '/' path = segments ∨ Text.splitAtEach '/' path = segments ++ [[]]) := by
  obtain rfl | ⟨start, last, rfl⟩ := path.eq_nil_or_concat
  · contradiction
  rw [List.concat_eq_append, join, List.getLast?_concat, Option.all_some]
  by_cases slash : last = '/'
  · refine ⟨Text.splitAtEach '/' start, ?_, .inr ?_⟩
    · rw [slash, if_pos (by decide), List.append_assoc, List.singleton_append,
        Text.splitAtEach_append_cons, Text.splitAtEach_of_notMem isName.2]
    · rw [slash, Text.splitAtEach_append_cons]
      rfl
  · refine ⟨Text.splitAtEach '/' (start ++ [last]), ?_, .inl rfl⟩
    rw [if_neg (by simpa using slash), List.append_assoc (start ++ [last])]
    exact (Text.splitAtEach_append_cons '/' (start ++ [last]) name).trans
      (by rw [Text.splitAtEach_of_notMem isName.2])

end Path

namespace Listing

variable {listing tree : Listing} {path : Text} {names start found : List Text}

/-! Following the segments of a path. -/

theorem follow_append (first second : List Text) :
    listing.follow names (first ++ second) = .ok found ↔
      ∃ middle, listing.follow names first = .ok middle ∧
        listing.follow middle second = .ok found := by
  induction first generalizing names with
  | nil => simp [follow]
  | cons segment first ih =>
      rw [List.cons_append, follow, follow]
      cases listing.entryAt? names with
      | none => simp
      | some entry =>
          cases entry with
          | file content => simp
          | directory inside =>
              simp only
              split_ifs
              · exact ih
              · simp
              · exact ih
              · simp
              · exact ih
              · simp

theorem follow_here :
    listing.follow names [[]] = .ok found ↔
      (∃ inside, listing.entryAt? names = some (.directory inside)) ∧ found = names := by
  rw [follow]
  cases listing.entryAt? names with
  | none => simp
  | some entry => cases entry <;> simp [follow, eq_comm]

theorem entryAt?_of_follow_cons {segment : Text} {segments : List Text}
    (followed : listing.follow names (segment :: segments) = .ok found) :
    ∃ inside, listing.entryAt? names = some (.directory inside) := by
  rw [follow] at followed
  cases reached : listing.entryAt? names with
  | none => simp [reached] at followed
  | some entry =>
      cases entry with
      | file content => simp [reached] at followed
      | directory inside => exact ⟨inside, rfl⟩

theorem follow_step {name : Text} {later : List Text} (isStep : IsStep name)
    (followed : listing.follow names (name :: later) = .ok found) :
    listing.follow (names ++ [name]) later = .ok found := by
  obtain ⟨⟨notEmpty, -⟩, notHere, notUp⟩ := isStep
  obtain ⟨inside, reached⟩ := entryAt?_of_follow_cons followed
  rw [follow, reached] at followed
  simp only [notEmpty, notHere, notUp, or_self, if_false] at followed
  split at followed
  · contradiction
  · split at followed
    · exact followed
    · contradiction

theorem follow_steps {later : List Text} (areSteps : ∀ name ∈ later, IsStep name)
    (followed : listing.follow names later = .ok found) : found = names ++ later := by
  induction later generalizing names with
  | nil =>
      cases followed
      exact (List.append_nil _).symm
  | cons name later ih =>
      rw [List.forall_mem_cons] at areSteps
      rw [ih areSteps.2 (follow_step areSteps.1 followed), List.append_assoc]
      rfl

theorem follow_join {name : Text} (isPath : path ≠ []) (isName : IsEntryName name) :
    listing.follow [] (Text.splitAtEach '/' (Path.join path name)) = .ok found ↔
      ∃ start, listing.follow [] (Text.splitAtEach '/' path) = .ok start ∧
        listing.follow start [name] = .ok found := by
  obtain ⟨segments, whole, cut | cut⟩ := Path.splitAtEach_join isPath isName
  · rw [whole, cut, follow_append]
  · rw [whole, cut, follow_append]
    constructor
    · rintro ⟨start, led, followed⟩
      exact ⟨start, (follow_append ..).mpr
        ⟨start, led, follow_here.mpr ⟨entryAt?_of_follow_cons followed, rfl⟩⟩, followed⟩
    · rintro ⟨start, led, followed⟩
      obtain ⟨middle, led, here⟩ := (follow_append ..).mp led
      obtain ⟨-, rfl⟩ := follow_here.mp here
      exact ⟨start, led, followed⟩

theorem follow_below {later : List Text} (isPath : path ≠ [])
    (areNames : ∀ name ∈ later, IsEntryName name)
    (followed : listing.follow [] (Text.splitAtEach '/' (Path.below path later)) = .ok found) :
    ∃ start, listing.follow [] (Text.splitAtEach '/' path) = .ok start ∧
      listing.follow start later = .ok found := by
  induction later generalizing path with
  | nil => exact ⟨found, followed, rfl⟩
  | cons name later ih =>
      rw [List.forall_mem_cons] at areNames
      obtain ⟨middle, led, followed⟩ := ih (Path.join_ne_nil path areNames.1) areNames.2 followed
      obtain ⟨start, led, step⟩ := (follow_join isPath areNames.1).mp led
      exact ⟨start, led, (follow_append [name] later).mpr ⟨middle, step, followed⟩⟩

theorem follow_of_namesOf (led : listing.namesOf path = .ok found) :
    path ≠ [] ∧ listing.follow [] (Text.splitAtEach '/' path) = .ok found := by
  rw [namesOf] at led
  split at led
  · contradiction
  · split at led
    · contradiction
    · split at led
      · contradiction
      · split at led
        · contradiction
        · exact ⟨‹_›, led⟩

/-- What is named below a directory lies there. -/
theorem namesOf_below {later : List Text} (led : listing.namesOf path = .ok start)
    (areSteps : ∀ name ∈ later, IsStep name)
    (known : listing.namesOf (Path.below path later) = .ok found) :
    found = start ++ later := by
  obtain ⟨isPath, led⟩ := follow_of_namesOf led
  obtain ⟨-, known⟩ := follow_of_namesOf known
  obtain ⟨middle, reached, followed⟩ :=
    follow_below isPath (fun name isMember => (areSteps name isMember).1) known
  rw [led] at reached
  cases reached
  exact follow_steps areSteps followed

/-! The names of the sources below a directory. -/

/-- The names that lead to the sources of a directory from there. -/
def sourceNames (path : Text) : Listing → List (List Text)
  | .empty => []
  | .file name _ others =>
    if !isSkipped name && isSourceName name then [name] :: others.sourceNames path
    else others.sourceNames path
  | .directory name inside others =>
    if isSkipped name then others.sourceNames path
    else if Text.byteLength (Path.join path name) ≤ pathLimit then
      (inside.sourceNames (Path.join path name)).map (name :: ·) ++ others.sourceNames path
    else if isSourceName name then [name] :: others.sourceNames path
    else others.sourceNames path

theorem sources_eq (listing : Listing) (path : Text) :
    listing.sources path = (listing.sourceNames path).map (Path.below path) := by
  induction listing generalizing path with
  | empty => rfl
  | file name content others ih =>
      rw [sources, sourceNames, ih]
      split <;> rfl
  | directory name inside others ihInside ihOthers =>
      rw [sources, sourceNames, ihInside, ihOthers]
      split
      · rfl
      · split
        · rw [List.map_append, List.map_map]
          rfl
        · split <;> rfl

theorem mem_sourceNames_file {name : Text} {content : Content} {others : Listing} :
    names ∈ (file name content others).sourceNames path ↔
      (names = [name] ∧ isSkipped name = false ∧ isSourceName name = true) ∨
        names ∈ others.sourceNames path := by
  rw [sourceNames]
  split
  next taken => simp_all
  next passed => simp_all

theorem of_mem_sourceNames_directory {name : Text} {inside others : Listing}
    (isSource : names ∈ (directory name inside others).sourceNames path) :
    (isSkipped name = false ∧ ∃ later, names = name :: later ∧
        (later = [] ∨ later ∈ inside.sourceNames (Path.join path name))) ∨
      names ∈ others.sourceNames path := by
  rw [sourceNames] at isSource
  split at isSource
  next => exact .inr isSource
  next taken =>
    rw [Bool.not_eq_true] at taken
    split at isSource
    · rw [List.mem_append, List.mem_map] at isSource
      obtain ⟨later, within, rfl⟩ | beside := isSource
      · exact .inl ⟨taken, later, rfl, .inr within⟩
      · exact .inr beside
    · split at isSource
      · rw [List.mem_cons] at isSource
        obtain rfl | beside := isSource
        · exact .inl ⟨taken, [], rfl, .inl rfl⟩
        · exact .inr beside
      · exact .inr isSource

theorem isStep_of_notSkipped {name : Text} (isName : IsEntryName name)
    (taken : isSkipped name = false) : IsStep name := by
  refine ⟨isName, ?_, ?_⟩
  · rintro rfl
    exact absurd taken (by decide)
  · rintro rfl
    exact absurd taken (by decide)

theorem isStep_of_mem_sourceNames (isTree : listing.IsTree)
    (isSource : names ∈ listing.sourceNames path) : ∀ name ∈ names, IsStep name := by
  induction listing generalizing path names with
  | empty => simp [sourceNames] at isSource
  | file name content others ih =>
      obtain ⟨rfl, taken, -⟩ | beside := mem_sourceNames_file.mp isSource
      · simpa using isStep_of_notSkipped isTree.1 taken
      · exact ih isTree.2.2 beside
  | directory name inside others ihInside ihOthers =>
      obtain ⟨taken, later, rfl, within⟩ | beside := of_mem_sourceNames_directory isSource
      · refine List.forall_mem_cons.mpr ⟨isStep_of_notSkipped isTree.1 taken, ?_⟩
        obtain rfl | within := within
        · simp
        · exact ihInside isTree.2.2.1 within
      · exact ihOthers isTree.2.2.2 beside

/-- The first of the names of a source is that of an entry. -/
theorem entryNamed?_of_mem_sourceNames (isSource : names ∈ listing.sourceNames path) :
    ∃ name later, names = name :: later ∧ (listing.entryNamed? name).isSome := by
  induction listing with
  | empty => simp [sourceNames] at isSource
  | file other content others ih =>
      obtain ⟨rfl, -⟩ | beside := mem_sourceNames_file.mp isSource
      · exact ⟨other, [], rfl, by simp [entryNamed?]⟩
      · obtain ⟨name, later, rfl, known⟩ := ih beside
        refine ⟨name, later, rfl, ?_⟩
        rw [entryNamed?]
        split
        · rfl
        · exact known
  | directory other inside others _ ih =>
      obtain ⟨-, later, rfl, -⟩ | beside := of_mem_sourceNames_directory isSource
      · exact ⟨other, later, rfl, by simp [entryNamed?]⟩
      · obtain ⟨name, later, rfl, known⟩ := ih beside
        refine ⟨name, later, rfl, ?_⟩
        rw [entryNamed?]
        split
        · rfl
        · exact known

theorem notMem_sourceNames {name : Text} {later : List Text}
    (absent : listing.entryNamed? name = none) :
    name :: later ∉ listing.sourceNames path := by
  intro isSource
  obtain ⟨other, rest, same, known⟩ := entryNamed?_of_mem_sourceNames isSource
  cases same
  simp [absent] at known

theorem nodup_sourceNames (isTree : listing.IsTree) (path : Text) :
    (listing.sourceNames path).Nodup := by
  induction listing generalizing path with
  | empty => simp [sourceNames]
  | file name content others ih =>
      obtain ⟨-, apart, isTree⟩ := isTree
      rw [sourceNames]
      split
      · exact List.nodup_cons.mpr ⟨notMem_sourceNames apart, ih isTree path⟩
      · exact ih isTree path
  | directory name inside others ihInside ihOthers =>
      obtain ⟨-, apart, isTreeInside, isTree⟩ := isTree
      rw [sourceNames]
      split
      · exact ihOthers isTree path
      · split
        · refine List.Nodup.append ?_ (ihOthers isTree path) ?_
          · exact (ihInside isTreeInside _).map fun _ _ same => (List.cons.inj same).2
          · intro names within beside
            obtain ⟨later, -, rfl⟩ := List.mem_map.mp within
            exact notMem_sourceNames apart beside
        · split
          · exact List.nodup_cons.mpr ⟨notMem_sourceNames apart, ihOthers isTree path⟩
          · exact ihOthers isTree path

/-! Directories of a tree are trees. -/

theorem isTree_of_entryNamed? {name : Text} {inside : Listing} (isTree : listing.IsTree)
    (found : listing.entryNamed? name = some (.directory inside)) : inside.IsTree := by
  induction listing with
  | empty => simp [entryNamed?] at found
  | file other content others ih =>
      rw [entryNamed?] at found
      split at found
      · cases found
      · exact ih isTree.2.2 found
  | directory other within others _ ih =>
      rw [entryNamed?] at found
      split at found
      · cases found
        exact isTree.2.2.1
      · exact ih isTree.2.2.2 found

theorem isTree_of_entryAt? {inside : Listing} (isTree : listing.IsTree)
    (found : listing.entryAt? names = some (.directory inside)) : inside.IsTree := by
  induction names generalizing listing with
  | nil =>
      cases found
      exact isTree
  | cons name names ih =>
      rw [entryAt?] at found
      cases known : listing.entryNamed? name with
      | none => simp [known] at found
      | some entry =>
          cases entry with
          | file content =>
              rw [known] at found
              simp at found
          | directory within =>
              rw [known] at found
              exact ih (isTree_of_entryNamed? isTree known) found

theorem isTree_shape (listing : Listing) : listing.shape.IsTree ↔ listing.IsTree := by
  induction listing with
  | empty => rfl
  | file name content others ih =>
      rw [shape, IsTree, IsTree, ih, entryNamed?_shape, Option.map_eq_none_iff]
  | directory name inside others ihInside ihOthers =>
      rw [shape, IsTree, IsTree, ihInside, ihOthers, entryNamed?_shape, Option.map_eq_none_iff]

/-! No two of the discovered paths lead to the same file. -/

/-- Two paths do not lead to the same file. -/
def Apart (tree : Listing) (first second : Text) : Prop :=
  ∀ names, tree.namesOf first = .ok names → tree.namesOf second ≠ .ok names

theorem Apart.symm {first second : Text} (apart : tree.Apart first second) :
    tree.Apart second first := by
  intro names leads also
  exact apart names also leads

theorem pairwise_apart_sources {inside : Listing} (isTree : inside.IsTree)
    (led : tree.namesOf path = .ok start) : (inside.sources path).Pairwise tree.Apart := by
  rw [sources_eq, List.pairwise_map]
  refine (nodup_sourceNames isTree path).imp_of_mem ?_
  intro first second isFirst isSecond different names leads also
  have ending := namesOf_below led (isStep_of_mem_sourceNames isTree isFirst) leads
  rw [namesOf_below led (isStep_of_mem_sourceNames isTree isSecond) also] at ending
  exact different (List.append_cancel_left ending).symm

end Listing

theorem dropRepeated_sublist (paths : List Text) : (dropRepeated paths).Sublist paths := by
  induction paths using dropRepeated.induct with
  | case1 first second rest same ih =>
      rw [dropRepeated, if_pos same]
      exact ih.trans ((List.sublist_cons_self second rest).cons_cons first)
  | case2 first second rest different ih =>
      rw [dropRepeated, if_neg different]
      exact ih.cons_cons first
  | case3 paths short => rw [dropRepeated.eq_2 _ short]

theorem discover_files_of_sorted {tree : Listing} {paths : List Text}
    (sorted : (paths.flatMap (filesOf tree)).Pairwise fun left right =>
      (Path.compare left right != .gt) = true) :
    (discover tree paths).files = dropRepeated (paths.flatMap (filesOf tree)) := by
  rw [discover, List.mergeSort_of_pairwise sorted]

/-- Below one argument, each file is discovered once. -/
theorem pairwise_apart_discover {tree : Listing} (isTree : tree.IsTree) (path : Text) :
    (discover tree [path]).files.Pairwise tree.Apart := by
  have inOrder : (filesOf tree path).Pairwise tree.Apart := by
    rw [filesOf, Listing.lookup]
    cases led : tree.namesOf path with
    | error cause => exact .nil
    | ok names =>
        simp only
        cases found : tree.entryAt? names with
        | none => exact .nil
        | some entry =>
            cases entry with
            | file content => exact List.pairwise_singleton ..
            | directory inside =>
                exact Listing.pairwise_apart_sources (Listing.isTree_of_entryAt? isTree found) led
  rw [discover, List.flatMap_singleton]
  refine List.Pairwise.sublist (dropRepeated_sublist _) ?_
  exact (List.mergeSort_perm ..).symm.pairwise inOrder Listing.Apart.symm

end ConstructorInjection
