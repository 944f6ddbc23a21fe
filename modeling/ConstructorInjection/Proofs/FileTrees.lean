import Mathlib.Data.List.Basic
import Mathlib.Tactic.Common
import ConstructorInjection.FileTree

/-!
What writing a file does to a tree: that file has the new content, and all other files, the
directories and the meaning of every path stay as they are.
-/

namespace ConstructorInjection

def Entry.content? : Entry → Option Content
  | file content => some content
  | directory _ => none

namespace Listing

/-- The content of the file that a sequence of names leads to. -/
def fileAt? (listing : Listing) (names : List Text) : Option Content :=
  (listing.entryAt? names).bind Entry.content?

/-- A tree without what its files hold. -/
def shape : Listing → Listing
  | empty => empty
  | file name _ others => file name (.text []) others.shape
  | directory name inside others => directory name inside.shape others.shape

end Listing

def Entry.shape : Entry → Entry
  | file _ => file (.text [])
  | directory inside => directory inside.shape

namespace Listing

theorem fileAt?_nil (listing : Listing) : listing.fileAt? [] = none := by
  rw [fileAt?, entryAt?]
  rfl

theorem fileAt?_empty (names : List Text) : empty.fileAt? names = none := by
  cases names <;> rfl

theorem fileAt?_file (other name : Text) (content : Content) (others : Listing)
    (names : List Text) :
    (file other content others).fileAt? (name :: names) =
      if other = name then (if names = [] then some content else none)
      else others.fileAt? (name :: names) := by
  by_cases same : other = name
  · by_cases last : names = []
    · simp [fileAt?, entryAt?, entryNamed?, same, last, Entry.content?]
    · simp [fileAt?, entryAt?, entryNamed?, same, last]
  · simp [fileAt?, entryAt?, entryNamed?, same]

theorem fileAt?_directory (other name : Text) (inside others : Listing) (names : List Text) :
    (directory other inside others).fileAt? (name :: names) =
      if other = name then inside.fileAt? names else others.fileAt? (name :: names) := by
  by_cases same : other = name <;> simp [fileAt?, entryAt?, entryNamed?, same]

theorem fileAt?_eq_some_iff {listing : Listing} {names : List Text} {content : Content} :
    listing.fileAt? names = some content ↔ listing.entryAt? names = some (.file content) := by
  rw [fileAt?, Option.bind_eq_some_iff]
  constructor
  · rintro ⟨entry, found, isFile⟩
    cases entry with
    | file other =>
        cases isFile
        exact found
    | directory inside => contradiction
  · intro found
    exact ⟨_, found, rfl⟩

section Writing

variable {listing : Listing} {names : List Text} {old : Content}

theorem shape_write (content : Content) (there : listing.fileAt? names = some old) :
    (listing.write content names).shape = listing.shape := by
  induction listing generalizing names with
  | empty => simp [fileAt?_empty] at there
  | file other existing others ih =>
      cases names with
      | nil => simp [fileAt?_nil] at there
      | cons name names =>
          rw [fileAt?_file] at there
          rw [write]
          split
          next => rfl
          next different =>
            rw [if_neg different] at there
            rw [shape, shape, ih there]
  | directory other inside others ihInside ihOthers =>
      cases names with
      | nil => simp [fileAt?_nil] at there
      | cons name names =>
          rw [fileAt?_directory] at there
          rw [write]
          split
          next same =>
            rw [if_pos same] at there
            rw [shape, shape, ihInside there]
          next different =>
            rw [if_neg different] at there
            rw [shape, shape, ihOthers there]

/-- A file that exists has the content that is written to it, and every other file its own. -/
theorem fileAt?_write (content : Content) (there : listing.fileAt? names = some old)
    (others : List Text) :
    (listing.write content names).fileAt? others =
      if others = names then some content else listing.fileAt? others := by
  induction listing generalizing names others with
  | empty => simp [fileAt?_empty] at there
  | file first existing later ih =>
      cases names with
      | nil => simp [fileAt?_nil] at there
      | cons name names =>
          rw [fileAt?_file] at there
          rw [write]
          cases others with
          | nil => simp [fileAt?_nil]
          | cons other others =>
              by_cases same : first = name
              · rw [if_pos same] at there ⊢
                by_cases last : names = []
                · by_cases target : name = other
                  · by_cases whole : others = [] <;> simp [fileAt?_file, same, last, target, whole]
                  · simp [fileAt?_file, same, target, Ne.symm target]
                · simp [last] at there
              · rw [if_neg same] at there ⊢
                rw [fileAt?_file, ih there, fileAt?_file]
                rw [ite_ite_comm]
                exact fun target equal => same (target.trans (List.cons.inj equal).1)
  | directory first inside later ihInside ihLater =>
      cases names with
      | nil => simp [fileAt?_nil] at there
      | cons name names =>
          rw [fileAt?_directory] at there
          rw [write]
          cases others with
          | nil => simp [fileAt?_nil]
          | cons other others =>
              by_cases same : first = name
              · rw [if_pos same] at there ⊢
                rw [fileAt?_directory, ihInside there, fileAt?_directory]
                by_cases target : first = other
                · simp [← same, target]
                · have apart : other ≠ name := fun equal => target (same.trans equal.symm)
                  simp [target, apart]
              · rw [if_neg same] at there ⊢
                rw [fileAt?_directory, ihLater there, fileAt?_directory]
                rw [ite_ite_comm]
                exact fun target equal => same (target.trans (List.cons.inj equal).1)

end Writing

/-! The meaning of a path does not depend on what files hold. -/

theorem entryNamed?_shape (name : Text) (listing : Listing) :
    listing.shape.entryNamed? name = (listing.entryNamed? name).map Entry.shape := by
  induction listing with
  | empty => rfl
  | file other content others ih =>
      rw [shape, entryNamed?, entryNamed?, ih]
      split <;> rfl
  | directory other inside others _ ih =>
      rw [shape, entryNamed?, entryNamed?, ih]
      split <;> rfl

theorem entryAt?_shape (listing : Listing) (names : List Text) :
    listing.shape.entryAt? names = (listing.entryAt? names).map Entry.shape := by
  induction names generalizing listing with
  | nil => rfl
  | cons name names ih =>
      rw [entryAt?, entryAt?, entryNamed?_shape]
      cases listing.entryNamed? name with
      | none => rfl
      | some entry =>
          cases entry with
          | file content =>
              simp only [Option.map_some, Entry.shape]
              split <;> rfl
          | directory inside => exact ih inside

theorem follow_shape (listing : Listing) (names segments : List Text) :
    listing.shape.follow names segments = listing.follow names segments := by
  induction segments generalizing names with
  | nil => rfl
  | cons segment segments ih =>
      rw [follow, follow, entryAt?_shape]
      cases listing.entryAt? names with
      | none => rfl
      | some entry =>
          cases entry with
          | file content => rfl
          | directory inside =>
              simp only [Option.map_some, Entry.shape, entryNamed?_shape, Option.isSome_map, ih]

theorem namesOf_shape (listing : Listing) (path : Text) :
    listing.shape.namesOf path = listing.namesOf path := by
  simp only [namesOf, follow_shape]

theorem namesOf_eq_of_shape {first second : Listing} (same : first.shape = second.shape)
    (path : Text) : first.namesOf path = second.namesOf path := by
  rw [← first.namesOf_shape, same, second.namesOf_shape]

/-- Reading a text is finding the file that the path leads to. -/
theorem readText_eq_ok_iff {listing : Listing} {path characters : Text} :
    listing.readText path = .ok characters ↔
      ∃ names, listing.namesOf path = .ok names ∧
        listing.fileAt? names = some (.text characters) := by
  rw [readText, lookup]
  cases listing.namesOf path with
  | error cause => simp
  | ok names =>
      simp only [Except.ok.injEq, exists_eq_left', fileAt?_eq_some_iff]
      cases listing.entryAt? names with
      | none => simp
      | some entry =>
          cases entry with
          | directory inside => simp
          | file content => cases content <;> simp

/-- The content of the file that a path leads to. -/
def contentAt? (listing : Listing) (path : Text) : Option Content :=
  (listing.namesOf path).toOption.bind listing.fileAt?

theorem contentAt?_of_namesOf {listing : Listing} {path : Text} {names : List Text}
    (leads : listing.namesOf path = .ok names) :
    listing.contentAt? path = listing.fileAt? names := by
  rw [contentAt?, leads]
  rfl

theorem readText_eq_ok_iff_contentAt? {listing : Listing} {path characters : Text} :
    listing.readText path = .ok characters ↔
      listing.contentAt? path = some (.text characters) := by
  rw [readText_eq_ok_iff, contentAt?]
  cases listing.namesOf path <;> simp [Except.toOption]

theorem contentAt?_writeText {listing : Listing} {path old : Text} (characters : Text)
    (there : listing.readText path = .ok old) :
    (listing.writeText path characters).contentAt? path = some (.text characters) := by
  obtain ⟨names, leads, content⟩ := readText_eq_ok_iff.mp there
  have same := shape_write (.text characters) content
  rw [writeText, leads, contentAt?_of_namesOf ((namesOf_eq_of_shape same path).trans leads),
    fileAt?_write _ content, if_pos rfl]

theorem eq_or_directories_of_shape {first second : Entry} (shape : first.shape = second.shape)
    (content : first.content? = second.content?) :
    second = first ∨ ∃ inside other, first = .directory inside ∧ second = .directory other := by
  cases first with
  | file firstContent =>
      cases second with
      | file secondContent =>
          cases content
          exact .inl rfl
      | directory inside => contradiction
  | directory inside =>
      cases second with
      | file secondContent => contradiction
      | directory other => exact .inr ⟨inside, other, rfl, rfl⟩

/-- What is read at a path is up to the shape of the tree and the content of that file. -/
theorem readText_eq_of_shape {first second : Listing} {path : Text}
    (same : first.shape = second.shape)
    (content : first.contentAt? path = second.contentAt? path) :
    first.readText path = second.readText path := by
  rw [readText, readText, lookup, lookup, namesOf_eq_of_shape same]
  cases leads : second.namesOf path with
  | error cause => rfl
  | ok names =>
      rw [contentAt?_of_namesOf leads,
        contentAt?_of_namesOf ((namesOf_eq_of_shape same path).trans leads), fileAt?, fileAt?]
        at content
      have shapes := congrArg (entryAt? · names) same
      simp only [entryAt?_shape] at shapes
      cases found : first.entryAt? names with
      | none =>
          rw [found] at shapes
          simp only [found, Option.map_eq_none_iff.mp shapes.symm]
      | some entry =>
          rw [found] at shapes content
          obtain ⟨other, otherFound, sameShape⟩ := Option.map_eq_some_iff.mp shapes.symm
          rw [otherFound] at content
          simp only [found, otherFound]
          obtain rfl | ⟨inside, others, rfl, rfl⟩ :=
            eq_or_directories_of_shape sameShape.symm content
          · rfl
          · rfl

end Listing

end ConstructorInjection
