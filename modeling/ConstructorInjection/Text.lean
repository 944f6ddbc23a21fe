/-!
Text as a list of characters, with the operations on it that the whole library shares.
-/

namespace ConstructorInjection

/-- Text is read and written character by character. -/
abbrev Text := List Char

instance : Coe String Text := ⟨String.toList⟩

namespace Text

def byteLength : Text → Nat
  | [] => 0
  | first :: rest => first.utf8Size + byteLength rest

theorem byteLength_append (first second : Text) :
    byteLength (first ++ second) = byteLength first + byteLength second := by
  induction first with
  | nil => rw [List.nil_append, byteLength, Nat.zero_add]
  | cons character first ih => rw [List.cons_append, byteLength, byteLength, ih, Nat.add_assoc]

def decimal (number : Nat) : Text :=
  Nat.toDigits 10 number

/-- Equality up to the case of the ASCII letters. -/
def equalIgnoringCase (left right : Text) : Bool :=
  left.map Char.toLower == right.map Char.toLower

/-- What follows `start`, when the text begins with it. -/
def dropStart? (start text : Text) : Option Text :=
  if start.isPrefixOf text then some (text.drop start.length) else none

/-- What precedes `finish`, when the text ends with it. -/
def dropFinish? (finish text : Text) : Option Text :=
  if finish.isSuffixOf text then some (text.take (text.length - finish.length)) else none

def holds (part : Text) : Text → Bool
  | [] => part.isEmpty
  | first :: rest => part.isPrefixOf (first :: rest) || holds part rest

/-- Replaces the occurrences of `part`, found from left to right without overlaps. A `part` with no
characters occurs nowhere. -/
def replaceAll (part replacement : Text) : Text → Text
  | [] => []
  | first :: rest =>
    if part ≠ [] ∧ part.isPrefixOf (first :: rest) then
      replacement ++ replaceAll part replacement (rest.drop (part.length - 1))
    else
      first :: replaceAll part replacement rest
termination_by text => text.length
decreasing_by
  · simp only [List.length_drop, List.length_cons]; omega
  · simp

/-- The parts between the separators; a text without a separator is its only part. -/
def splitAtEach (separator : Char) : Text → List Text
  | [] => [[]]
  | first :: rest =>
    if first = separator then [] :: splitAtEach separator rest
    else (splitAtEach separator rest).modifyHead (first :: ·)

/-- The parts before and after the first separator. -/
def splitAtFirst? (separator : Char) (text : Text) : Option (Text × Text) :=
  if separator ∈ text then
    some (text.takeWhile (· ≠ separator), (text.dropWhile (· ≠ separator)).drop 1)
  else
    none

/-- The lines of a text, without the line feed that ends each and without one carriage return before
it. A text that ends in a line feed has no further empty line. -/
def lines : Text → List Text
  | [] => []
  | '\n' :: rest => [] :: lines rest
  | '\r' :: '\n' :: rest => [] :: lines rest
  | [last] => [[last]]
  | first :: rest => (lines rest).modifyHead (first :: ·)

/-- The texts one after the other, with `separator` between two of them. -/
def joinWith (separator : Text) : List Text → Text
  | [] => []
  | [last] => last
  | first :: rest => first ++ separator ++ joinWith separator rest

def padLeft (width : Nat) (text : Text) : Text :=
  List.replicate (width - text.length) ' ' ++ text

def padRight (width : Nat) (text : Text) : Text :=
  text ++ List.replicate (width - text.length) ' '

/-- Order by code points, which is also the order of the UTF-8 bytes. -/
def compare : Text → Text → Ordering
  | [], [] => .eq
  | [], _ :: _ => .lt
  | _ :: _, [] => .gt
  | left :: lefts, right :: rights =>
    (Ord.compare left.toNat right.toNat).then (compare lefts rights)

end Text

end ConstructorInjection
