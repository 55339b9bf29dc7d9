import AtomicCss.Decimal.Basic
import AtomicCss.Text.Basic

/-!
# Numbers with units

A `Dimension` is a number and its unit, both exactly as written. The value of the number is the
double nearest to the decimal that its digits denote, so zeros in front of the whole part and at
the end of the fraction make no difference to it.

* `readNumber` reads an optional sign, digits and an optional point.
* `readDimension` reads a number and the unit that follows it.
* `Dimension.magnitude` is the value without its sign.
-/

namespace AtomicCss

/-- A number with a unit, both as written; a plain number has the empty unit. -/
structure Dimension where
  /-- The number with its sign. -/
  number : String
  /-- The unit. -/
  unit : String
deriving DecidableEq, Repr

/-! ### Reading -/

/-- Reads digits with at most one point among them, and a digit before or right after it. -/
def readUnsigned (cs : List Char) : Option (List Char × List Char) :=
  match cs.takeWhile Char.isDigit, cs.dropWhile Char.isDigit with
  | [], '.' :: rest =>
    match rest.takeWhile Char.isDigit with
    | [] => none
    | fraction => some ('.' :: fraction, rest.dropWhile Char.isDigit)
  | [], _ => none
  | whole, '.' :: rest =>
    some (whole ++ '.' :: rest.takeWhile Char.isDigit, rest.dropWhile Char.isDigit)
  | whole, rest => some (whole, rest)

/-- Reads a number with an optional sign. -/
def readNumber : List Char → Option (List Char × List Char)
  | [] => none
  | c :: cs =>
    if c = '+' || c = '-' then (readUnsigned cs).map fun (number, rest) => (c :: number, rest)
    else readUnsigned (c :: cs)

/-- Reads a unit: a percent sign or a run of ASCII letters, which may be empty. -/
def readUnit : List Char → List Char × List Char
  | '%' :: rest => (['%'], rest)
  | cs => (cs.takeWhile Char.isAlpha, cs.dropWhile Char.isAlpha)

/-- Reads a number and the unit that follows it. -/
def readDimension (cs : List Char) : Option (Dimension × List Char) :=
  (readNumber cs).map fun (number, rest) =>
    (⟨String.ofList number, String.ofList (readUnit rest).1⟩, (readUnit rest).2)

/-! ### Values -/

/-- Drops the characters at the end that satisfy `p`. -/
def dropEndWhile (p : Char → Bool) (cs : List Char) : List Char :=
  (cs.reverse.dropWhile p).reverse

/-- Whether a number has a minus sign, and what follows its sign. -/
def splitSign : List Char → Bool × List Char
  | '-' :: rest => (true, rest)
  | '+' :: rest => (false, rest)
  | cs => (false, cs)

/-- The decimal denoted by digits with an optional point. Zeros at either end are dropped first,
so that the result depends on the number alone. -/
def unsignedDecimal (cs : List Char) : Decimal :=
  let whole := (cs.takeWhile (· != '.')).dropWhile (· == '0')
  let fraction := dropEndWhile (· == '0') ((cs.dropWhile (· != '.')).drop 1)
  ⟨false, Decimal.ofDigits (whole ++ fraction), -(fraction.length : Int)⟩

/-- The double nearest to a number without its sign. Besides digits there are the texts of
infinity and of not-a-number. -/
def unsignedMagnitude (cs : List Char) : Float :=
  if cs = ['i', 'n', 'f'] then 1.0 / 0.0
  else if cs = ['N', 'a', 'N'] then 0.0 / 0.0
  else (unsignedDecimal cs).magnitude

namespace Dimension

/-- The value of the number without its sign. -/
def magnitude (d : Dimension) : Float :=
  unsignedMagnitude (splitSign d.number.toList).2

/-- The value of the number. -/
def value (d : Dimension) : Float :=
  if (splitSign d.number.toList).1 then -d.magnitude else d.magnitude

/-- Whether the value is zero. -/
def isZero (d : Dimension) : Bool :=
  d.magnitude == 0.0

end Dimension

end AtomicCss
