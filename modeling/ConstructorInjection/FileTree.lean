import ConstructorInjection.Text

/-!
A tree of files below a working directory, and the paths into it. A path names its file by way of
directories that exist, `.` and `..` among them. The directories above the working directory hold
nothing that a path could name.
-/

namespace ConstructorInjection

/-- What a file holds: text, or bytes that are no UTF-8. -/
inductive Content where
  | text (characters : Text)
  | undecodable (bytes : List UInt8)
  deriving DecidableEq

/-- The entries of a directory, in the order in which they are listed. -/
inductive Listing where
  | empty
  | file (name : Text) (content : Content) (others : Listing)
  | directory (name : Text) (inside others : Listing)
  deriving DecidableEq

inductive Entry where
  | file (content : Content)
  | directory (inside : Listing)
  deriving DecidableEq

inductive FileError where
  | notFound
  | notDirectory
  | isDirectory
  | notUnicode
  | nameTooLong
  | nulInName
  deriving DecidableEq

def FileError.message : FileError → Text
  | notFound => "No such file or directory (os error 2)"
  | notDirectory => "Not a directory (os error 20)"
  | isDirectory => "Is a directory (os error 21)"
  | notUnicode => "stream did not contain valid UTF-8"
  | nameTooLong => "File name too long (os error 36)"
  | nulInName => "file name contained an unexpected NUL byte"

/-- The most bytes that a name in a directory can have. -/
def segmentLimit : Nat :=
  255

/-- The most bytes that a path can have. -/
def pathLimit : Nat :=
  4095

/-- What is wrong with a path that leaves the tree: it leads to a directory above it, or to a name
that is not known there. -/
def errorAbove (segments : List Text) : FileError :=
  if segments.all fun segment => segment = [] ∨ segment = "." ∨ segment = ".." then .isDirectory
  else .notFound

namespace Listing

def entryNamed? (name : Text) : Listing → Option Entry
  | empty => none
  | file other content others =>
    if other = name then some (.file content) else entryNamed? name others
  | directory other inside others =>
    if other = name then some (.directory inside) else entryNamed? name others

/-- The entry that a sequence of names leads to, from directory to directory. -/
def entryAt? (listing : Listing) : List Text → Option Entry
  | [] => some (.directory listing)
  | name :: names =>
    match listing.entryNamed? name with
    | none => none
    | some (.directory inside) => entryAt? inside names
    | some (.file content) => if names = [] then some (.file content) else none

/-- A listing with one entry, below the directories that the names ask for. -/
def single (entry : Text → Listing) : List Text → Listing
  | [] => empty
  | [name] => entry name
  | name :: names => directory name (single entry names) empty

/-- Writes a file, with the directories that it lacks. What is not a file is not overwritten. -/
def write (content : Content) : List Text → Listing → Listing
  | [], listing => listing
  | names, empty => single (file · content empty) names
  | name :: names, file other old others =>
    if other = name then file other (if names = [] then content else old) others
    else file other old (write content (name :: names) others)
  | name :: names, directory other inside others =>
    if other = name then directory other (write content names inside) others
    else directory other inside (write content (name :: names) others)

/-- Makes a directory, with the directories that it lacks. -/
def makeDirectory : List Text → Listing → Listing
  | [], listing => listing
  | names, empty => single (directory · empty empty) names
  | name :: names, file other content others =>
    if other = name then file other content others
    else file other content (makeDirectory (name :: names) others)
  | name :: names, directory other inside others =>
    if other = name then directory other (makeDirectory names inside) others
    else directory other inside (makeDirectory (name :: names) others)

/-- The names that the segments of a path lead to, from the directory of `names`. -/
def follow (listing : Listing) (names : List Text) : List Text → Except FileError (List Text)
  | [] => .ok names
  | segment :: segments =>
    match listing.entryAt? names with
    | none => .error .notFound
    | some (.file _) => .error .notDirectory
    | some (.directory inside) =>
      if segment = [] ∨ segment = "." then listing.follow names segments
      else if segment = ".." then
        if names = [] then .error (errorAbove segments) else listing.follow names.dropLast segments
      else if segmentLimit < Text.byteLength segment then .error .nameTooLong
      else if (inside.entryNamed? segment).isSome then listing.follow (names ++ [segment]) segments
      else .error .notFound

/-- The names that lead to what a path denotes. -/
def namesOf (listing : Listing) (path : Text) : Except FileError (List Text) :=
  if path.contains '\x00' then .error .nulInName
  else if pathLimit < Text.byteLength path then .error .nameTooLong
  else if path = [] then .error .notFound
  else if path.head? = some '/' then .error (errorAbove (Text.splitAtEach '/' path))
  else listing.follow [] (Text.splitAtEach '/' path)

def lookup (listing : Listing) (path : Text) : Except FileError Entry :=
  match listing.namesOf path with
  | .error error => .error error
  | .ok names =>
    match listing.entryAt? names with
    | some entry => .ok entry
    | none => .error .notFound

def readText (listing : Listing) (path : Text) : Except FileError Text :=
  match listing.lookup path with
  | .error error => .error error
  | .ok (.directory _) => .error .isDirectory
  | .ok (.file (.undecodable _)) => .error .notUnicode
  | .ok (.file (.text characters)) => .ok characters

def writeText (listing : Listing) (path : Text) (characters : Text) : Listing :=
  match listing.namesOf path with
  | .error _ => listing
  | .ok names => listing.write (.text characters) names

end Listing

namespace Path

def join (directory name : Text) : Text :=
  if directory.getLast?.all (· == '/') then directory ++ name else directory ++ "/" ++ name

inductive Component where
  | root
  | here
  | up
  | name (characters : Text)
  deriving DecidableEq

def Component.rank : Component → Nat
  | root => 0
  | here => 1
  | up => 2
  | name _ => 3

def Component.compare (left right : Component) : Ordering :=
  match left, right with
  | name left, name right => Text.compare left right
  | left, right => Ord.compare left.rank right.rank

/-- The components that paths are compared by. A dot counts at the start only. -/
def components (path : Text) : List Component :=
  let segments := Text.splitAtEach '/' path
  let start :=
    match segments with
    | [] :: _ :: _ => [Component.root]
    | first :: _ => if first = "." then [Component.here] else []
    | [] => []
  let kept := segments.filter fun segment => segment ≠ [] ∧ segment ≠ ("." : Text)
  start ++ kept.map fun segment => if segment = (".." : Text) then .up else .name segment

def compareComponents : List Component → List Component → Ordering
  | [], [] => .eq
  | [], _ :: _ => .lt
  | _ :: _, [] => .gt
  | left :: lefts, right :: rights => (left.compare right).then (compareComponents lefts rights)

/-- Paths are ordered component by component. -/
def compare (left right : Text) : Ordering :=
  compareComponents (components left) (components right)

end Path

/-- The files of a listing with their paths from its directory, which has the given path. -/
def Listing.files (path : Text) : Listing → List (Text × Content)
  | empty => []
  | file name content others => (Path.join path name, content) :: others.files path
  | directory name inside others => inside.files (Path.join path name) ++ others.files path

end ConstructorInjection
