import AtomicCss.Decimal.Basic

/-!
# JSON numerals

A `Numeral` is a number as it is written. Its value is a double that is found in two steps, each of
which rounds.

* `Numeral.toDecimal` gathers digits into a significand of 64 bits. In the whole part the first
  digit that does not fit and those after it count as places only; in the fraction they are dropped.
* `Decimal.scaled?` multiplies the double nearest to the significand by the double nearest to a
  power of ten, or divides by it. There is no value if the product is infinite.

`Numeral.natural?` is the value of a numeral that is written as a natural number.
-/

namespace AtomicCss

namespace Json

/-- A number as it is written. -/
structure Numeral where
  /-- Whether there is a minus sign. -/
  negative : Bool
  /-- The digits before the point. -/
  whole : List Char
  /-- The digits after the point, if there is one. -/
  fraction : Option (List Char)
  /-- The sign and the digits of the exponent, if there is one. -/
  exponent : Option (Bool × List Char)
deriving DecidableEq, Repr

end Json

namespace Decimal

/-- Appends digits to a significand as long as it stays below `2 ^ 64`. Gives the significand and
the digits that are left. -/
def gather (significand : Nat) : List Char → Nat × List Char
  | [] => (significand, [])
  | c :: cs =>
    if pushDigit significand c < 2 ^ 64 then gather (pushDigit significand c) cs
    else (significand, c :: cs)

/-- The double nearest to a power of ten. -/
def powerOfTen (k : Nat) : Float :=
  Float.ofScientific 1 false k

/-- The exponent of the largest power of ten in the range of doubles. -/
def largestPower : Nat := 308

/-- Multiplies a double by a power of ten, unless the product is infinite. -/
def scaleUp? (x : Float) (k : Nat) : Option Float :=
  if k ≤ largestPower then
    if (x * powerOfTen k).isInf then none else some (x * powerOfTen k)
  else if x == 0.0 then some x
  else none

/-- Divides a double below `2 ^ 65` by a power of ten, in two steps if the power is beyond the range
of doubles. Two such steps leave nothing of the double. -/
def scaleDown (x : Float) (k : Nat) : Float :=
  if k ≤ largestPower then x / powerOfTen k
  else if k ≤ 2 * largestPower then x / powerOfTen largestPower / powerOfTen (k - largestPower)
  else 0.0

/-- The number without its sign: the double nearest to the coefficient, scaled by a power of ten. -/
def scaledMagnitude? (d : Decimal) : Option Float :=
  match d.exponent with
  | .ofNat k => scaleUp? (Float.ofNat d.coefficient) k
  | .negSucc k => some (scaleDown (Float.ofNat d.coefficient) (k + 1))

/-- The double nearest to the coefficient, scaled by a power of ten, with the sign of the number. -/
def scaled? (d : Decimal) : Option Float :=
  d.scaledMagnitude?.map fun x => if d.negative then -x else x

end Decimal

namespace Json.Numeral

/-- The value of the exponent. -/
def scale (n : Numeral) : Int :=
  match n.exponent with
  | none => 0
  | some (negative, digits) =>
    if negative then -(Decimal.ofDigits digits : Int) else Decimal.ofDigits digits

/-- The number that is written, as far as its digits fit into 64 bits. -/
def toDecimal (n : Numeral) : Decimal :=
  let digits := n.fraction.getD []
  let whole := Decimal.gather 0 n.whole
  let fraction := Decimal.gather whole.1 digits
  ⟨n.negative, fraction.1, n.scale + whole.2.length + fraction.2.length - digits.length⟩

/-- The value as a double, unless it is infinite. -/
def toFloat? (n : Numeral) : Option Float :=
  n.toDecimal.scaled?

/-- The value of a numeral without sign, point and exponent. -/
def natural? (n : Numeral) : Option Nat :=
  match n with
  | ⟨false, whole, none, none⟩ => some (Decimal.ofDigits whole)
  | _ => none

end Json.Numeral

end AtomicCss
