import ConstructorInjection.Decimal
import ConstructorInjection.MappingTables.ReadError

/-!
Numbers in JSON. No mapping holds one, but a message about a number that is out of place says what
number it is.
-/

namespace ConstructorInjection

open Reading

inductive Number where
  | integer (value : Int)
  | double (value : Float)

def Number.description : Number → Text
  | integer value =>
    "integer `" ++ (if value < 0 then "-" else "") ++ Text.decimal value.natAbs ++ "`"
  | double value => "floating point `" ++ doubleText value ++ "`"

/-- Appends the digits at the start of a text to a number, as long as it stays below a limit. -/
def appendDigits (limit value : Nat) : Text → Nat × Text
  | [] => (value, [])
  | first :: rest =>
    let longer := 10 * value + (first.toNat - '0'.toNat)
    if first.isDigit ∧ longer < limit then appendDigits limit longer rest
    else (value, first :: rest)

/-- Significands have 64 bits. Digits that would not fit count for their place only. -/
def significandLimit : Nat :=
  Nat.pow 2 64

/-- The whole part of a number, up to the first digit that does not fit. Only zero itself starts
with a zero. -/
def readWhole : Text → Reading (Nat × Text)
  | [] => here .endInValue []
  | '0' :: rest =>
    if rest.head?.any Char.isDigit then atNext .invalidNumber rest else .ok (0, rest)
  | first :: rest =>
    if first.isDigit then .ok (appendDigits significandLimit 0 (first :: rest))
    else atNext .invalidNumber (first :: rest)

/-- The first character of a text has to be a digit. -/
def requireDigit (text : Text) : Reading Unit :=
  match text with
  | [] => here .endInValue []
  | first :: rest => if first.isDigit then .ok () else atNext .invalidNumber (first :: rest)

/-- Appends the fraction at the start of a text, which may be missing, to a significand. The second
number counts the digits that fit. -/
def readFraction (whole : Nat) : Text → Reading (Nat × Nat × Text)
  | '.' :: digits => do
    requireDigit digits
    let (significand, rest) := appendDigits significandLimit whole digits
    return (significand, digits.length - rest.length, rest.dropWhile Char.isDigit)
  | text => .ok (whole, 0, text)

/-- Exponents have 31 bits. One that does not fit leaves nothing of the number if it is negative. -/
def exponentLimit : Nat :=
  Nat.pow 2 31

/-- The exponent at the start of a text, which may be missing. -/
def readExponent (significand : Nat) : Text → Reading (Int × Text)
  | 'e' :: text | 'E' :: text => do
    let (negative, digits) :=
      match text with
      | '+' :: digits => (false, digits)
      | '-' :: digits => (true, digits)
      | digits => (false, digits)
    requireDigit digits
    let (exponent, rest) := appendDigits exponentLimit 0 digits
    if rest.head?.any Char.isDigit && significand != 0 && !negative then
      atNext .numberOutOfRange rest
    else
      return (if negative then -exponent else exponent, rest.dropWhile Char.isDigit)
  | text => .ok (0, text)

def powerOfTen (exponent : Nat) : Float :=
  Float.ofScientific 1 false exponent

/-- The number times a power of ten, unless that is too large for a double. Every step rounds. -/
def scale? (number : Float) (exponent : Int) : Option Float :=
  if number == 0 then some number
  else if 308 < exponent then none
  else if 0 ≤ exponent then
    let scaled := number * powerOfTen exponent.toNat
    if scaled.isInf then none else some scaled
  else if -308 ≤ exponent then some (number / powerOfTen exponent.natAbs)
  else scale? (number / powerOfTen 308) (exponent + 308)
termination_by exponent.natAbs

/-- Whether a whole number is an integer of 64 bits. There is no negative zero among them. -/
def fitsInteger (negative : Bool) (magnitude : Nat) : Bool :=
  !negative || (0 < magnitude && magnitude ≤ Nat.pow 2 63)

def readNumber (text : Text) : Reading (Number × Text) := do
  let negative := text.head? == some '-'
  let (whole, afterWhole) ← readWhole (if negative then text.drop 1 else text)
  let excess := afterWhole.takeWhile Char.isDigit
  let (significand, decimals, afterFraction) ← readFraction whole (afterWhole.drop excess.length)
  let (exponent, rest) ← readExponent significand afterFraction
  if rest.length = afterWhole.length ∧ fitsInteger negative whole then
    return (.integer (if negative then -whole else whole), rest)
  else
    match scale? (Float.ofNat significand) (excess.length - decimals + exponent) with
    | none => here .numberOutOfRange rest
    | some magnitude => return (.double (if negative then -magnitude else magnitude), rest)

end ConstructorInjection
