import ConstructorInjection.FileTree

/-!
The files that path arguments ask for. A file is taken as it is named; of a directory, the PHP
sources in it are taken, except for hidden ones and those in directories of other origin.
-/

namespace ConstructorInjection

def sourceExtensions : List Text :=
  ["php", "phtml"]

def skippedNames : List Text :=
  ["vendor", "node_modules", "target"]

/-- Whether an entry below a directory argument is passed over with all that is in it. -/
def isSkipped (name : Text) : Bool :=
  name.head? == some '.' || skippedNames.contains name

/-- What follows the last dot of a name, when something precedes it. -/
def extension? (name : Text) : Option Text :=
  let ending := (name.reverse.takeWhile (· ≠ '.')).reverse
  if ending.length + 1 < name.length then some ending else none

def isSourceName (name : Text) : Bool :=
  (extension? name).any fun ending => sourceExtensions.any (Text.equalIgnoringCase ending)

/-- The paths of the sources in a listing, whose directory has the given path. A directory whose own
path is too long is not known for one, and its name decides as if it were a file. -/
def Listing.sources (path : Text) : Listing → List Text
  | .empty => []
  | .file name _ others =>
    if !isSkipped name && isSourceName name then Path.join path name :: others.sources path
    else others.sources path
  | .directory name inside others =>
    if isSkipped name then others.sources path
    else if Text.byteLength (Path.join path name) ≤ pathLimit then
      inside.sources (Path.join path name) ++ others.sources path
    else if isSourceName name then Path.join path name :: others.sources path
    else others.sources path

structure Discovered where
  /-- In the order of their paths, each path once. -/
  files : List Text
  /-- The arguments that denote nothing. -/
  missing : List Text
  deriving DecidableEq

def filesOf (listing : Listing) (path : Text) : List Text :=
  match listing.lookup path with
  | .ok (.file _) => [path]
  | .ok (.directory inside) => inside.sources path
  | .error _ => []

def isMissing (listing : Listing) (path : Text) : Bool :=
  match listing.lookup path with
  | .ok _ => false
  | .error _ => true

/-- Drops paths that are equal to the one before them, component by component. -/
def dropRepeated : List Text → List Text
  | first :: second :: rest =>
    if Path.compare first second = .eq then dropRepeated (first :: rest)
    else first :: dropRepeated (second :: rest)
  | paths => paths
termination_by paths => paths.length

def discover (listing : Listing) (paths : List Text) : Discovered :=
  let found := paths.flatMap (filesOf listing)
  ⟨dropRepeated (found.mergeSort fun left right => Path.compare left right != .gt),
    paths.filter (isMissing listing)⟩

end ConstructorInjection
