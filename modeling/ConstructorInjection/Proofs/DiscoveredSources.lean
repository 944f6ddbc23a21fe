import Mathlib.Data.List.Basic
import Mathlib.Data.List.TakeWhile
import Mathlib.Tactic.Common
import ConstructorInjection.Proofs.FirstPaths

/-!
What is discovered: the arguments that are files, and below those that are directories every source
that is not passed over, as long as the directories on the way can be opened.
-/

namespace ConstructorInjection

/-- A name that ends in `.php` or `.phtml`, in any case, with something in front. -/
def HasSourceExtension (name : Text) : Prop :=
  ∃ stem ending, name = stem ++ '.' :: ending ∧ stem ≠ [] ∧ '.' ∉ ending ∧
    (Text.equalIgnoringCase ending "php" = true ∨ Text.equalIgnoringCase ending "phtml" = true)

theorem forall_ne_dot {text : Text} (noDot : '.' ∉ text) :
    ∀ character ∈ text.reverse, decide (character ≠ '.') = true := by
  intro character member
  rw [decide_eq_true_eq]
  rintro rfl
  exact noDot (List.mem_reverse.mp member)

theorem extension?_append {stem ending : Text} (noDot : '.' ∉ ending) :
    extension? (stem ++ '.' :: ending) = if stem = [] then none else some ending := by
  have cut : (stem ++ '.' :: ending).reverse.takeWhile (· ≠ '.') = ending.reverse := by
    rw [List.reverse_append, List.reverse_cons, List.append_assoc,
      List.takeWhile_append_of_pos (forall_ne_dot noDot)]
    simp
  rw [extension?, cut, List.reverse_reverse]
  cases stem with
  | nil => simp
  | cons first rest =>
      have longer : ending.length + 1 < (first :: rest ++ '.' :: ending).length := by
        rw [List.length_append, List.length_cons, List.length_cons]
        omega
      exact if_pos longer

theorem extension?_eq_none {name : Text} (noDot : '.' ∉ name) : extension? name = none := by
  have whole : name.reverse.takeWhile (· ≠ '.') = name.reverse :=
    List.takeWhile_eq_self_iff.mpr (forall_ne_dot noDot)
  rw [extension?, whole, List.reverse_reverse]
  simp

theorem extension?_eq_some_iff {name ending : Text} :
    extension? name = some ending ↔
      ∃ stem, name = stem ++ '.' :: ending ∧ stem ≠ [] ∧ '.' ∉ ending := by
  constructor
  · intro found
    by_cases dotted : '.' ∈ name
    · -- the last dot of a name is the first one from its end
      obtain ⟨back, front, cut, noDot⟩ := List.eq_append_cons_of_mem (List.mem_reverse.mpr dotted)
      obtain rfl : name = front.reverse ++ '.' :: back.reverse := by
        rw [← name.reverse_reverse, cut]
        simp
      rw [← List.mem_reverse] at noDot
      rw [extension?_append noDot] at found
      split at found
      next => contradiction
      next filled =>
        cases found
        exact ⟨front.reverse, rfl, filled, noDot⟩
    · rw [extension?_eq_none dotted] at found
      contradiction
  · rintro ⟨stem, rfl, filled, noDot⟩
    rw [extension?_append noDot, if_neg filled]

theorem isSourceName_iff {name : Text} : isSourceName name = true ↔ HasSourceExtension name := by
  rw [isSourceName, Option.any_eq_true]
  simp only [extension?_eq_some_iff, HasSourceExtension, sourceExtensions, List.any_cons,
    List.any_nil, Bool.or_false, Bool.or_eq_true]
  constructor
  · rintro ⟨ending, ⟨stem, whole, filled, noDot⟩, known⟩
    exact ⟨stem, ending, whole, filled, noDot, known⟩
  · rintro ⟨stem, ending, whole, filled, noDot, known⟩
    exact ⟨ending, ⟨stem, whole, filled, noDot⟩, known⟩

namespace Listing

variable {listing : Listing} {path name : Text} {names : List Text}

/-- Some names lead to a source that is not passed over on the way. -/
structure HoldsSource (listing : Listing) (names : List Text) : Prop where
  isFile : ∃ content, listing.fileAt? names = some content
  taken : ∀ name ∈ names, isSkipped name = false
  isSource : ∀ last ∈ names.getLast?, HasSourceExtension last

/-- The directories below a path that are not passed over have paths that are short enough. -/
def OpensBelow (listing : Listing) (path : Text) : Prop :=
  ∀ names inside, (∀ name ∈ names, isSkipped name = false) →
    listing.entryAt? names = some (.directory inside) →
      Text.byteLength (Path.below path names) ≤ pathLimit

/-- Whether a walk meets no directory whose path is too long. -/
def opensBelow (path : Text) : Listing → Bool
  | empty => true
  | file _ _ others => others.opensBelow path
  | directory name inside others =>
    (isSkipped name || (Text.byteLength (Path.join path name) ≤ pathLimit &&
      inside.opensBelow (Path.join path name))) && others.opensBelow path

theorem not_holdsSource_nil : ¬ listing.HoldsSource [] := by
  rintro ⟨⟨content, isFile⟩, -, -⟩
  rw [fileAt?_nil] at isFile
  contradiction

theorem fileAt?_eq_none (absent : listing.entryNamed? name = none) (later : List Text) :
    listing.fileAt? (name :: later) = none := by
  rw [fileAt?, entryAt?, absent]
  rfl

theorem holdsSource_file {content : Content} {others : Listing}
    (apart : others.entryNamed? name = none) :
    (file name content others).HoldsSource names ↔
      (names = [name] ∧ isSkipped name = false ∧ isSourceName name = true) ∨
        others.HoldsSource names := by
  rw [isSourceName_iff]
  cases names with
  | nil => simp [not_holdsSource_nil]
  | cons first later =>
      constructor
      · rintro ⟨⟨found, isFile⟩, taken, isSource⟩
        rw [fileAt?_file] at isFile
        split at isFile
        next same =>
          split at isFile
          next last =>
            subst same last
            exact .inl ⟨rfl, taken name (by simp), isSource name rfl⟩
          next => contradiction
        next => exact .inr ⟨⟨found, isFile⟩, taken, isSource⟩
      · rintro (⟨⟨⟩, taken, isSource⟩ | ⟨⟨found, isFile⟩, taken, isSource⟩)
        · exact ⟨⟨content, by simp [fileAt?_file]⟩, by simpa using taken, by simpa using isSource⟩
        · have different : name ≠ first := by
            rintro rfl
            rw [fileAt?_eq_none apart] at isFile
            contradiction
          exact ⟨⟨found, by rw [fileAt?_file, if_neg different, isFile]⟩, taken, isSource⟩

theorem holdsSource_directory {inside others : Listing}
    (apart : others.entryNamed? name = none) :
    (directory name inside others).HoldsSource names ↔
      (isSkipped name = false ∧ ∃ later, names = name :: later ∧ inside.HoldsSource later) ∨
        others.HoldsSource names := by
  cases names with
  | nil => simp [not_holdsSource_nil]
  | cons first later =>
      constructor
      · rintro ⟨⟨found, isFile⟩, taken, isSource⟩
        rw [fileAt?_directory] at isFile
        split at isFile
        next same =>
          subst same
          obtain ⟨takenFirst, takenLater⟩ := List.forall_mem_cons.mp taken
          refine .inl ⟨takenFirst, later, rfl, ⟨found, isFile⟩, takenLater, ?_⟩
          intro last isLast
          refine isSource last ?_
          rw [List.getLast?_cons, isLast]
          rfl
        next => exact .inr ⟨⟨found, isFile⟩, taken, isSource⟩
      · rintro (⟨takenFirst, _, ⟨⟩, holds⟩ | ⟨⟨found, isFile⟩, taken, isSource⟩)
        · have nonempty : later ≠ [] := by
            rintro rfl
            exact not_holdsSource_nil holds
          obtain ⟨⟨found, isFile⟩, takenLater, isSource⟩ := holds
          refine ⟨⟨found, by rw [fileAt?_directory, if_pos rfl, isFile]⟩,
            List.forall_mem_cons.mpr ⟨takenFirst, takenLater⟩, ?_⟩
          obtain ⟨second, later, rfl⟩ := List.exists_cons_of_ne_nil nonempty
          rwa [List.getLast?_cons_cons]
        · have different : name ≠ first := by
            rintro rfl
            rw [fileAt?_eq_none apart] at isFile
            contradiction
          exact ⟨⟨found, by rw [fileAt?_directory, if_neg different, isFile]⟩, taken, isSource⟩

namespace OpensBelow

theorem of_others {whole others : Listing} (opens : whole.OpensBelow path)
    (apart : others.entryNamed? name = none)
    (same : ∀ first, name ≠ first → whole.entryNamed? first = others.entryNamed? first) :
    others.OpensBelow path := by
  intro names inside taken found
  cases names with
  | nil => exact opens [] whole taken rfl
  | cons first later =>
      have different : name ≠ first := by
        rintro rfl
        simp [entryAt?, apart] at found
      refine opens (first :: later) inside taken ?_
      rw [entryAt?] at found ⊢
      rw [same first different, found]

theorem others_file {content : Content} {others : Listing}
    (opens : (file name content others).OpensBelow path)
    (apart : others.entryNamed? name = none) : others.OpensBelow path :=
  opens.of_others apart fun first different => by rw [entryNamed?, if_neg different]

theorem others_directory {inside others : Listing}
    (opens : (directory name inside others).OpensBelow path)
    (apart : others.entryNamed? name = none) : others.OpensBelow path :=
  opens.of_others apart fun first different => by rw [entryNamed?, if_neg different]

theorem inside_directory {inside others : Listing}
    (opens : (directory name inside others).OpensBelow path) (taken : isSkipped name = false) :
    Text.byteLength (Path.join path name) ≤ pathLimit ∧
      inside.OpensBelow (Path.join path name) := by
  have atDirectory (later : List Text) :
      (directory name inside others).entryAt? (name :: later) = inside.entryAt? later := by
    rw [entryAt?, entryNamed?, if_pos rfl]
  refine ⟨opens [name] inside (by simpa using taken) (atDirectory []), ?_⟩
  intro names within takenLater found
  exact opens (name :: names) within (List.forall_mem_cons.mpr ⟨taken, takenLater⟩)
    ((atDirectory names).trans found)

end OpensBelow

/-- A walk that finds every directory short enough finds them all open. -/
theorem OpensBelow.of_opensBelow (short : Text.byteLength path ≤ pathLimit)
    (opens : listing.opensBelow path = true) : listing.OpensBelow path := by
  intro names inside taken found
  induction listing generalizing path names with
  | empty =>
      cases names with
      | nil => exact short
      | cons first later => simp [entryAt?, entryNamed?] at found
  | file name content others ih =>
      cases names with
      | nil => exact short
      | cons first later =>
          by_cases same : name = first
          · simp only [entryAt?, entryNamed?, if_pos same] at found
            split at found <;> cases found
          · refine ih short opens (first :: later) taken ?_
            rwa [entryAt?, entryNamed?, if_neg same] at found
  | directory name within others ihWithin ihOthers =>
      rw [opensBelow, Bool.and_eq_true, Bool.or_eq_true, Bool.and_eq_true, decide_eq_true_eq]
        at opens
      cases names with
      | nil => exact short
      | cons first later =>
          by_cases same : name = first
          · subst same
            obtain ⟨takenFirst, takenLater⟩ := List.forall_mem_cons.mp taken
            simp only [takenFirst, Bool.false_eq_true, false_or] at opens
            rw [entryAt?, entryNamed?, if_pos rfl] at found
            exact ihWithin opens.1.1 opens.1.2 later takenLater found
          · refine ihOthers short opens.2 (first :: later) taken ?_
            rwa [entryAt?, entryNamed?, if_neg same] at found

theorem mem_sourceNames_directory {inside others : Listing}
    (short : isSkipped name = false → Text.byteLength (Path.join path name) ≤ pathLimit) :
    names ∈ (directory name inside others).sourceNames path ↔
      (isSkipped name = false ∧
          ∃ later, names = name :: later ∧ later ∈ inside.sourceNames (Path.join path name)) ∨
        names ∈ others.sourceNames path := by
  rw [sourceNames]
  split
  next skipped => simp [skipped]
  next taken =>
    rw [Bool.not_eq_true] at taken
    rw [if_pos (short taken), List.mem_append, List.mem_map]
    simp [taken, eq_comm, and_comm]

/-- The walk comes to exactly the sources that are not passed over. -/
theorem mem_sourceNames_iff (isTree : listing.IsTree) (opens : listing.OpensBelow path) :
    names ∈ listing.sourceNames path ↔ listing.HoldsSource names := by
  induction listing generalizing path names with
  | empty =>
      refine iff_of_false (by simp [sourceNames]) ?_
      rintro ⟨⟨content, isFile⟩, -, -⟩
      rw [fileAt?_empty] at isFile
      contradiction
  | file name content others ih =>
      obtain ⟨-, apart, isTree⟩ := isTree
      rw [mem_sourceNames_file, holdsSource_file apart, ih isTree (opens.others_file apart)]
  | directory name inside others ihInside ihOthers =>
      obtain ⟨-, apart, isTreeInside, isTree⟩ := isTree
      rw [mem_sourceNames_directory fun taken => (opens.inside_directory taken).1,
        holdsSource_directory apart, ihOthers isTree (opens.others_directory apart)]
      refine or_congr_left (and_congr_right fun taken => ?_)
      simp only [ihInside isTreeInside (opens.inside_directory taken).2]

/-- The files that an argument asks for: itself, or the sources below it. -/
inductive AsksFor (tree : Listing) (path : Text) : Text → Prop where
  | file {content : Content} (isFile : tree.lookup path = .ok (.file content)) :
      tree.AsksFor path path
  | below {inside : Listing} {names : List Text}
      (isDirectory : tree.lookup path = .ok (.directory inside)) (holds : inside.HoldsSource names) :
      tree.AsksFor path (Path.below path names)

/-- The directories that a walk from an argument goes into have paths that are short enough. -/
def OpensFrom (tree : Listing) (path : Text) : Prop :=
  ∀ inside, tree.lookup path = .ok (.directory inside) → inside.OpensBelow path

theorem entryAt?_append {tree inside : Listing}
    (found : tree.entryAt? names = some (.directory inside)) (later : List Text) :
    tree.entryAt? (names ++ later) = inside.entryAt? later := by
  induction names generalizing tree with
  | nil =>
      cases found
      rfl
  | cons name names ih =>
      rw [entryAt?] at found
      rw [List.cons_append, entryAt?]
      split at found
      · contradiction
      · exact ih found
      · split at found <;> cases found

theorem lookup_eq_ok_iff {tree : Listing} {entry : Entry} :
    tree.lookup path = .ok entry ↔
      ∃ names, tree.namesOf path = .ok names ∧ tree.entryAt? names = some entry := by
  rw [lookup]
  cases tree.namesOf path with
  | error cause => simp
  | ok names => cases found : tree.entryAt? names <;> simp [found]

theorem isTree_of_lookup {tree inside : Listing} (isTree : tree.IsTree)
    (found : tree.lookup path = .ok (.directory inside)) : inside.IsTree := by
  obtain ⟨names, -, reached⟩ := lookup_eq_ok_iff.mp found
  exact isTree_of_entryAt? isTree reached

theorem mem_filesOf_iff {tree : Listing} {file : Text} (isTree : tree.IsTree)
    (opens : tree.OpensFrom path) : file ∈ filesOf tree path ↔ tree.AsksFor path file := by
  rw [filesOf]
  constructor
  · intro member
    split at member
    next content isFile =>
      cases List.mem_singleton.mp member
      exact .file isFile
    next inside isDirectory =>
      rw [sources_eq, List.mem_map] at member
      obtain ⟨names, isSource, rfl⟩ := member
      have isTreeInside := isTree_of_lookup isTree isDirectory
      exact .below isDirectory ((mem_sourceNames_iff isTreeInside (opens _ isDirectory)).mp isSource)
    next => contradiction
  · intro asked
    cases asked with
    | file isFile =>
        rw [isFile]
        exact List.mem_singleton.mpr rfl
    | below isDirectory holds =>
        have isTreeInside := isTree_of_lookup isTree isDirectory
        have isSource := (mem_sourceNames_iff isTreeInside (opens _ isDirectory)).mpr holds
        simp only [isDirectory, sources_eq]
        exact List.mem_map_of_mem isSource

/-- Below one argument, the components tell the files apart. -/
theorem eq_of_mem_filesOf {tree : Listing} (isTree : tree.IsTree) {first second : Text}
    (isFirst : first ∈ filesOf tree path) (isSecond : second ∈ filesOf tree path)
    (same : Path.components first = Path.components second) : first = second := by
  obtain ⟨start, names, led, rfl, steps⟩ := below_of_mem_filesOf isTree isFirst
  obtain ⟨_, others, _, rfl, stepsToo⟩ := below_of_mem_filesOf isTree isSecond
  have isPath := (follow_of_namesOf led).1
  rw [Path.components_below isPath steps, Path.components_below isPath stepsToo,
    List.append_cancel_left_eq] at same
  have injective : Function.Injective Path.Component.name := fun _ _ equal => by cases equal; rfl
  rw [injective.list_map same]

theorem AsksFor.exists_file {tree : Listing} {file : Text} (asked : tree.AsksFor path file) :
    ∃ names content, tree.fileAt? names = some content := by
  cases asked with
  | file isFile =>
      obtain ⟨names, -, reached⟩ := lookup_eq_ok_iff.mp isFile
      exact ⟨names, _, fileAt?_eq_some_iff.mpr reached⟩
  | @below inside later isDirectory holds =>
      obtain ⟨names, -, reached⟩ := lookup_eq_ok_iff.mp isDirectory
      obtain ⟨content, isFile⟩ := holds.isFile
      refine ⟨names ++ later, content, fileAt?_eq_some_iff.mpr ?_⟩
      rw [entryAt?_append reached, fileAt?_eq_some_iff.mp isFile]

/-! Trees with the same entries, listed in any order. -/

/-- Two trees hold the same directories and files, whatever the order in which they list them. -/
def SameEntries (tree other : Listing) : Prop :=
  ∀ names, (tree.entryAt? names).map Entry.content? = (other.entryAt? names).map Entry.content?

theorem entryAt?_singleton (listing : Listing) (name : Text) :
    listing.entryAt? [name] = listing.entryNamed? name := by
  rw [entryAt?]
  cases listing.entryNamed? name with
  | none => rfl
  | some entry => cases entry <;> rfl

namespace SameEntries

variable {tree other : Listing}

theorem entryAt?_cases (same : tree.SameEntries other) (names : List Text) :
    (tree.entryAt? names = none ∧ other.entryAt? names = none) ∨
      (∃ content, tree.entryAt? names = some (.file content) ∧
        other.entryAt? names = some (.file content)) ∨
      ∃ inside within, tree.entryAt? names = some (.directory inside) ∧
        other.entryAt? names = some (.directory within) ∧ inside.SameEntries within := by
  have equal := same names
  cases found : tree.entryAt? names with
  | none =>
      rw [found] at equal
      exact .inl ⟨rfl, Option.map_eq_none_iff.mp equal.symm⟩
  | some entry =>
      rw [found] at equal
      obtain ⟨entryToo, foundToo, contents⟩ := Option.map_eq_some_iff.mp equal.symm
      cases entry with
      | file content =>
          cases entryToo with
          | file contentToo =>
              cases contents
              exact .inr (.inl ⟨content, rfl, foundToo⟩)
          | directory within => contradiction
      | directory inside =>
          cases entryToo with
          | file content => contradiction
          | directory within =>
              refine .inr (.inr ⟨inside, within, rfl, foundToo, fun later => ?_⟩)
              rw [← entryAt?_append found, ← entryAt?_append foundToo]
              exact same (names ++ later)

theorem follow_eq (same : tree.SameEntries other) (names segments : List Text) :
    tree.follow names segments = other.follow names segments := by
  induction segments generalizing names with
  | nil => rfl
  | cons segment segments ih =>
      rw [follow, follow]
      rcases same.entryAt?_cases names with ⟨found, foundToo⟩ | ⟨content, found, foundToo⟩ |
        ⟨inside, within, found, foundToo, sameInside⟩
      · rw [found, foundToo]
      · rw [found, foundToo]
      · have known := congrArg Option.isSome (sameInside [segment])
        rw [Option.isSome_map, Option.isSome_map, entryAt?_singleton, entryAt?_singleton] at known
        simp only [found, foundToo, known, ih]

theorem lookup_cases (same : tree.SameEntries other) (path : Text) :
    (∃ error, tree.lookup path = .error error ∧ other.lookup path = .error error) ∨
      (∃ content, tree.lookup path = .ok (.file content) ∧
        other.lookup path = .ok (.file content)) ∨
      ∃ inside within, tree.lookup path = .ok (.directory inside) ∧
        other.lookup path = .ok (.directory within) ∧ inside.SameEntries within := by
  have leads : tree.namesOf path = other.namesOf path := by
    rw [namesOf, namesOf]
    simp only [same.follow_eq]
  rw [lookup, lookup, leads]
  cases other.namesOf path with
  | error cause => exact .inl ⟨cause, rfl, rfl⟩
  | ok names =>
      rcases same.entryAt?_cases names with ⟨found, foundToo⟩ | ⟨content, found, foundToo⟩ |
        ⟨inside, within, found, foundToo, sameInside⟩
      · exact .inl ⟨.notFound, by simp [found], by simp [foundToo]⟩
      · exact .inr (.inl ⟨content, by simp [found], by simp [foundToo]⟩)
      · exact .inr (.inr ⟨inside, within, by simp [found], by simp [foundToo], sameInside⟩)

theorem fileAt?_eq (same : tree.SameEntries other) (names : List Text) :
    tree.fileAt? names = other.fileAt? names := by
  rcases same.entryAt?_cases names with ⟨found, foundToo⟩ | ⟨content, found, foundToo⟩ |
    ⟨inside, within, found, foundToo, -⟩
  · simp [fileAt?, found, foundToo]
  · simp [fileAt?, found, foundToo]
  · simp [fileAt?, found, foundToo, Entry.content?]

theorem symm (same : tree.SameEntries other) : other.SameEntries tree :=
  fun names => (same names).symm

theorem holdsSource (same : tree.SameEntries other) (holds : tree.HoldsSource names) :
    other.HoldsSource names :=
  ⟨same.fileAt?_eq names ▸ holds.isFile, holds.taken, holds.isSource⟩

theorem asksFor (same : tree.SameEntries other) {file : Text} (asked : tree.AsksFor path file) :
    other.AsksFor path file := by
  rcases same.lookup_cases path with ⟨error, found, _⟩ | ⟨content, found, foundToo⟩ |
    ⟨inside, within, found, foundToo, sameInside⟩
  · cases asked with
    | file isFile => simp [found] at isFile
    | below isDirectory _ => simp [found] at isDirectory
  · cases asked with
    | file isFile => exact .file foundToo
    | below isDirectory _ => simp [found] at isDirectory
  · cases asked with
    | file isFile => simp [found] at isFile
    | below isDirectory holds =>
        rw [found] at isDirectory
        cases isDirectory
        exact .below foundToo (sameInside.holdsSource holds)

theorem opensFrom (same : tree.SameEntries other) (opens : tree.OpensFrom path) :
    other.OpensFrom path := by
  intro within foundToo names last taken reached
  rcases same.lookup_cases path with ⟨error, _, known⟩ | ⟨content, _, known⟩ |
    ⟨inside, _, found, known, sameInside⟩
  · simp [known] at foundToo
  · simp [known] at foundToo
  · rw [known] at foundToo
    cases foundToo
    rcases sameInside.symm.entryAt?_cases names with ⟨none, -⟩ | ⟨content, isFile, -⟩ |
      ⟨_, atNames, -, reachedToo, -⟩
    · simp [none] at reached
    · simp [isFile] at reached
    · exact opens inside found names atNames taken reachedToo

theorem isMissing_eq (same : tree.SameEntries other) : isMissing tree = isMissing other := by
  funext path
  rw [isMissing, isMissing]
  rcases same.lookup_cases path with ⟨error, found, foundToo⟩ | ⟨content, found, foundToo⟩ |
    ⟨inside, within, found, foundToo, -⟩ <;> rw [found, foundToo]

theorem discover_eq (same : tree.SameEntries other) (isTree : tree.IsTree)
    (isTreeToo : other.IsTree) {paths : List Text}
    (opens : ∀ path ∈ paths, tree.OpensFrom path) : discover tree paths = discover other paths := by
  have files : (discover tree paths).files = (discover other paths).files := by
    refine discover_files_eq (fun path isPath file => ?_)
      fun path _ first isFirst second isSecond => eq_of_mem_filesOf isTree isFirst isSecond
    rw [mem_filesOf_iff isTree (opens path isPath),
      mem_filesOf_iff isTreeToo (same.opensFrom (opens path isPath))]
    exact ⟨same.asksFor, same.symm.asksFor⟩
  have missing : (discover tree paths).missing = (discover other paths).missing := by
    rw [discover, discover, same.isMissing_eq]
  exact congrArg₂ Discovered.mk files missing

end SameEntries

end Listing

/-- Sources among entries that are passed over. -/
def walkedEntries : Listing :=
  .file ".a.php" (.text []) (.file "b.txt" (.text [])
    (.directory "vendor" (.file "c.php" (.text []) .empty)
      (.directory "lib" (.file "d.PHTML" (.text []) .empty) .empty)))

def walkedDirectory : Listing :=
  .directory "src" walkedEntries (.file "e.inc" (.text []) .empty)

def walkedArguments : List Text :=
  ["src", "e.inc", "gone"]

theorem lookup_walkedEntries : walkedDirectory.lookup "src" = .ok (.directory walkedEntries) := by
  decide +kernel

theorem opensFrom_walkedArguments : ∀ path ∈ walkedArguments, walkedDirectory.OpensFrom path := by
  have isFile : walkedDirectory.lookup "e.inc" = .ok (.file (.text [])) := by decide +kernel
  have isMissing : walkedDirectory.lookup "gone" = .error .notFound := by decide +kernel
  intro path isPath inside found
  simp only [walkedArguments, List.mem_cons, List.not_mem_nil, or_false] at isPath
  rcases isPath with rfl | rfl | rfl
  · cases lookup_walkedEntries.symm.trans found
    exact .of_opensBelow (by decide +kernel) (by decide +kernel)
  · cases isFile.symm.trans found
  · cases isMissing.symm.trans found

/-- The working directory, with slashes behind its dot. -/
def dotSlashes (count : Nat) : Text :=
  '.' :: List.replicate count '/'

theorem splitAtEach_dotSlashes (count : Nat) :
    Text.splitAtEach '/' (dotSlashes count) = ['.'] :: List.replicate count [] := by
  have slashes (count : Nat) :
      Text.splitAtEach '/' (List.replicate count '/') = List.replicate (count + 1) [] := by
    induction count with
    | zero => rfl
    | succ count ih =>
        rw [List.replicate_succ, Text.splitAtEach, if_pos rfl, ih]
        rfl
  rw [dotSlashes, Text.splitAtEach, if_neg (by decide), slashes]
  rfl

theorem byteLength_dotSlashes (count : Nat) : Text.byteLength (dotSlashes count) = count + 1 := by
  have slashes (count : Nat) : Text.byteLength (List.replicate count '/') = count := by
    induction count with
    | zero => rfl
    | succ count ih =>
        rw [List.replicate_succ, Text.byteLength, ih, Nat.add_comm]
        rfl
  rw [dotSlashes, Text.byteLength, slashes, Nat.add_comm]
  rfl

theorem lookup_dotSlashes (tree : Listing) {count : Nat} (short : count + 1 ≤ pathLimit) :
    tree.lookup (dotSlashes count) = .ok (.directory tree) := by
  have stays (count : Nat) : tree.follow [] (List.replicate count []) = .ok [] := by
    induction count with
    | zero => rfl
    | succ count ih =>
        rw [List.replicate_succ, Listing.follow, Listing.entryAt?]
        exact ih
  have leads : tree.namesOf (dotSlashes count) = .ok [] := by
    rw [Listing.namesOf, if_neg (by simp [dotSlashes]), byteLength_dotSlashes,
      if_neg (Nat.not_lt.mpr short), if_neg (by simp [dotSlashes]), if_neg (by simp [dotSlashes]),
      splitAtEach_dotSlashes, Listing.follow, Listing.entryAt?]
    exact stays count
  exact Listing.lookup_eq_ok_iff.mpr ⟨[], leads, rfl⟩

/-- A directory without entries that is called like a source. -/
def directoryLikeSource : Listing :=
  .directory "d.php" .empty .empty

theorem filesOf_directoryLikeSource :
    filesOf directoryLikeSource (dotSlashes 4094) = [dotSlashes 4094 ++ "d.php"] := by
  have joined : Path.join (dotSlashes 4094) "d.php" = dotSlashes 4094 ++ "d.php" := by
    rw [Path.join, dotSlashes, List.getLast?_cons, List.getLast?_replicate]
    rfl
  have long : ¬ Text.byteLength (Path.join (dotSlashes 4094) "d.php") ≤ pathLimit := by
    rw [joined, Text.byteLength_append, byteLength_dotSlashes]
    decide
  rw [filesOf, lookup_dotSlashes _ (by decide)]
  simp only [directoryLikeSource, Listing.sources]
  rw [if_neg (by decide), if_neg long, if_pos (by decide), joined]

theorem fileAt?_directoryLikeSource (names : List Text) :
    directoryLikeSource.fileAt? names = none := by
  cases names with
  | nil => exact Listing.fileAt?_nil _
  | cons name names =>
      rw [directoryLikeSource, Listing.fileAt?_directory, Listing.fileAt?_empty,
        Listing.fileAt?_empty, ite_self]

end ConstructorInjection
