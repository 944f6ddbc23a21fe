import ConstructorInjection.Text

/-!
Doubles in decimal. Of the decimals that round to a double, one with the fewest digits is chosen,
and of those the nearest.
-/

namespace ConstructorInjection

/-- The magnitudes that round to a double, as whole multiples of `2 ^ -1076 * 10 ^ -324`. Every
halfway point between two doubles is such a multiple, and so is every power of ten that is not
below all of the doubles. -/
structure RoundingInterval where
  low : Nat
  value : Nat
  high : Nat
  /-- The two ends round to the double with the even significand. -/
  closed : Bool
  deriving DecidableEq

namespace RoundingInterval

/-- A power of two has a neighbour below that is half as far away as the one above. -/
def ofDouble (number : Float) : RoundingInterval :=
  let magnitude := number.toBits.toNat % Nat.pow 2 63
  let exponent := magnitude / Nat.pow 2 52
  let fraction := magnitude % Nat.pow 2 52
  let significand := if exponent = 0 then fraction else Nat.pow 2 52 + fraction
  let quarter := Nat.pow 2 (exponent - 1) * Nat.pow 10 324
  let below := if fraction = 0 ∧ 1 < exponent then 1 else 2
  ⟨(4 * significand - below) * quarter, 4 * significand * quarter,
    (4 * significand + 2) * quarter, significand % 2 = 0⟩

def contains (interval : RoundingInterval) (multiple : Nat) : Bool :=
  if interval.closed then interval.low ≤ multiple ∧ multiple ≤ interval.high
  else interval.low < multiple ∧ multiple < interval.high

/-- The count of a unit that comes nearest to the value, among the counts in the interval. Of two
that are equally near, the even one is taken. -/
def nearest? (interval : RoundingInterval) (unit : Nat) : Option Nat :=
  let below := interval.value / unit
  let past := interval.value % unit
  let fits := interval.contains (below * unit)
  let fitsAbove := interval.contains ((below + 1) * unit)
  if fits ∧ fitsAbove then
    if 2 * past < unit ∨ 2 * past = unit ∧ below % 2 = 0 then some below else some (below + 1)
  else if fits then some below
  else if fitsAbove then some (below + 1)
  else none

end RoundingInterval

/-- The number `digits * 10 ^ exponent`. -/
structure Decimal where
  digits : Nat
  exponent : Int
  deriving DecidableEq

namespace Decimal

/-- Tries the units `10 ^ (place - 324)` from the coarse to the fine. -/
def shortestFrom (interval : RoundingInterval) : Nat → Decimal
  | 0 => ⟨interval.value / Nat.pow 2 1076, -324⟩
  | place + 1 =>
    match interval.nearest? (Nat.pow 10 place * Nat.pow 2 1076) with
    | some digits => ⟨digits, (place : Int) - 324⟩
    | none => shortestFrom interval place

/-- The magnitude of a finite double. -/
def ofDouble (number : Float) : Decimal :=
  if number == 0 then ⟨0, 0⟩ else shortestFrom (RoundingInterval.ofDouble number) 633

/-- Exponents of the leading digit from -5 to 15 are spelled out in zeros, with at least one digit
after the point. Others are written, with their sign. -/
def text (number : Decimal) : Text :=
  let digits := Text.decimal number.digits
  let leading := number.exponent + digits.length - 1
  if leading < -5 ∨ 15 < leading then
    let point : Text := if digits.length = 1 then "" else "."
    let sign : Text := if leading < 0 then "-" else "+"
    digits.take 1 ++ point ++ digits.drop 1 ++ "e" ++ sign ++ Text.decimal leading.natAbs
  else if 0 ≤ number.exponent then
    digits ++ List.replicate number.exponent.toNat '0' ++ ".0"
  else if 0 ≤ leading then
    digits.take (leading.toNat + 1) ++ "." ++ digits.drop (leading.toNat + 1)
  else "0." ++ List.replicate (leading.natAbs - 1) '0' ++ digits

end Decimal

/-- A finite double, with the sign of a zero. -/
def doubleText (number : Float) : Text :=
  let sign : Text := if number.toBits.toNat < Nat.pow 2 63 then "" else "-"
  sign ++ (Decimal.ofDouble number).text

end ConstructorInjection
