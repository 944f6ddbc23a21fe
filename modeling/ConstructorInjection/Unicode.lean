import ConstructorInjection.Text
import ConstructorInjection.Unicode.Letters
import ConstructorInjection.Unicode.Digits
import ConstructorInjection.Unicode.Case
import ConstructorInjection.Unicode.Visibility

/-!
Character classes and case mappings of Unicode 17.0. The ASCII characters are decided by rule, the
others by table.
-/

namespace ConstructorInjection.Unicode

def inRanges (ranges : List (Nat × Nat)) (code : Nat) : Bool :=
  ranges.any fun (low, high) => low ≤ code && code ≤ high

def isAscii (character : Char) : Bool :=
  character.toNat < 0x80

/-- Letters of all scripts. -/
def isAlphabetic (character : Char) : Bool :=
  if isAscii character then character.isAlpha else inRanges alphabeticRanges character.toNat

/-- Digits and number signs of all scripts. -/
def isNumeric (character : Char) : Bool :=
  if isAscii character then character.isDigit else inRanges numericRanges character.toNat

def isAlphanumeric (character : Char) : Bool :=
  isAlphabetic character || isNumeric character

/-- The characters with the property White_Space. -/
def isSpace (character : Char) : Bool :=
  inRanges [(0x09, 0x0D), (0x20, 0x20), (0x85, 0x85), (0xA0, 0xA0), (0x1680, 0x1680),
    (0x2000, 0x200A), (0x2028, 0x2029), (0x202F, 0x202F), (0x205F, 0x205F), (0x3000, 0x3000)]
    character.toNat

/-- Marks that are shown on the character before them. -/
def isAttaching (character : Char) : Bool :=
  !isAscii character && inRanges attachingRanges character.toNat

/-- Characters that are shown as themselves. -/
def isVisible (character : Char) : Bool :=
  if isAscii character then 0x20 ≤ character.toNat && character.toNat ≤ 0x7E
  else !inRanges invisibleRanges character.toNat

def CaseRun.image? (run : CaseRun) (code : Nat) : Option Nat :=
  if run.first ≤ code ∧ code ≤ run.last ∧ (code - run.first) % run.stride = 0 then
    some (run.image + (code - run.first))
  else
    none

/-- The image of a code point under a table of runs and expansions; itself when neither has it. -/
def mapCase (runs : List CaseRun) (expansions : List (Nat × List Nat)) (character : Char) : Text :=
  match expansions.lookup character.toNat with
  | some images => images.map Char.ofNat
  | none =>
    match runs.findSome? (·.image? character.toNat) with
    | some image => [Char.ofNat image]
    | none => [character]

def toUppercase (character : Char) : Text :=
  if isAscii character then [character.toUpper]
  else mapCase uppercaseRuns uppercaseExpansions character

def toLowercase (character : Char) : Text :=
  if isAscii character then [character.toLower]
  else mapCase lowercaseRuns lowercaseExpansions character

def capitalize : Text → Text
  | [] => []
  | first :: rest => toUppercase first ++ rest

def uncapitalize : Text → Text
  | [] => []
  | first :: rest => toLowercase first ++ rest

/-- The text without white space at its two ends. -/
def trim (text : Text) : Text :=
  ((text.dropWhile isSpace).reverse.dropWhile isSpace).reverse

end ConstructorInjection.Unicode
