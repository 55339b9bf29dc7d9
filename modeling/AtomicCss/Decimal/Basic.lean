/-!
# Decimal numbers and their texts

A `Decimal` is `± coefficient · 10 ^ exponent`. It is written in positional form, never with an
exponent, and read as the double nearest to it.

* `Decimal.text` writes the digits, padded with zeros up to the decimal point.
* `Decimal.magnitude` is the nearest double of the number without its sign; a number beyond the
  range of doubles becomes infinite, and one too close to zero becomes zero.
-/

namespace AtomicCss

/-- The decimal number `± coefficient · 10 ^ exponent`. -/
structure Decimal where
  /-- Whether the number carries a minus sign. -/
  negative : Bool
  /-- The digits, read as a natural number. -/
  coefficient : Nat
  /-- The power of ten by which the digits are scaled. -/
  exponent : Int
deriving DecidableEq, Repr

namespace Decimal

/-- The digits of a number in base ten, most significant first. -/
def digits (n : Nat) : List Char :=
  Nat.toDigits 10 n

/-- The text of a natural number. -/
def natText (n : Nat) : String :=
  String.ofList (digits n)

/-- Appends a digit to a number; a character that is no digit counts as its distance from `0`. -/
def pushDigit (n : Nat) (c : Char) : Nat :=
  10 * n + (c.toNat - '0'.toNat)

/-- The number whose digits are given. -/
def ofDigits (cs : List Char) : Nat :=
  cs.foldl pushDigit 0

/-- The characters of `n · 10 ^ -places`, with at least one digit before the point. -/
def withPoint (n places : Nat) : List Char :=
  let padded := List.replicate (places + 1 - (digits n).length) '0' ++ digits n
  padded.take (padded.length - places) ++ '.' :: padded.drop (padded.length - places)

/-- The characters of `n · 10 ^ exponent` in positional form. -/
def positional (n : Nat) : Int → List Char
  | .ofNat zeros => digits n ++ List.replicate zeros '0'
  | .negSucc k => withPoint n (k + 1)

/-- The text of a decimal number in positional form. -/
def text (d : Decimal) : String :=
  String.ofList ((if d.negative then ['-'] else []) ++ positional d.coefficient d.exponent)

/-- The exponent of the power of ten that bounds the number: `10 ^ n` is the least power of ten
above it. -/
def order (d : Decimal) : Int :=
  (digits d.coefficient).length + d.exponent

/-- Powers of ten from this exponent on lie beyond every finite double. -/
def largestOrder : Int := 310

/-- A number below this power of ten rounds to zero. -/
def smallestOrder : Int := -330

/-- The double nearest to the number without its sign. -/
def magnitude (d : Decimal) : Float :=
  if d.coefficient = 0 || d.order < smallestOrder then 0.0
  else if largestOrder < d.order then 1.0 / 0.0
  else Float.ofScientific d.coefficient (d.exponent < 0) d.exponent.natAbs

end Decimal

end AtomicCss
