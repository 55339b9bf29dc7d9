/-!
# Doubles as scaled integers

A finite double is `± significand · 2 ^ exponent` with integers on both places. `Double.ofFloat`
reads these off the bits of the double, so that rounding and printing are exact integer
arithmetic.

* `roundHalfAway` rounds to the nearest integer, and a half away from zero.
-/

namespace AtomicCss

/-- What the bits of a double stand for. -/
inductive Double where
  /-- The number `± significand · 2 ^ exponent`. -/
  | finite (negative : Bool) (significand : Nat) (exponent : Int)
  /-- An infinity with its sign. -/
  | infinite (negative : Bool)
  /-- No number. -/
  | notANumber
deriving DecidableEq, Repr

namespace Double

/-- Reads sign, exponent and fraction off the bits: 1, 11 and 52 of them. -/
def ofFloat (x : Float) : Double :=
  let bits := x.toBits.toNat
  let negative := Nat.pow 2 63 ≤ bits
  let biased : Nat := bits / Nat.pow 2 52 % Nat.pow 2 11
  let fraction := bits % Nat.pow 2 52
  if biased = 2047 then
    if fraction = 0 then .infinite negative else .notANumber
  else if biased = 0 then .finite negative fraction (-1074)
  else .finite negative (fraction + Nat.pow 2 52) ((biased : Int) - 1075)

/-- The integer nearest to `n / 2 ^ k`; a half goes up. -/
def roundShift (n k : Nat) : Nat :=
  (2 * n + Nat.pow 2 k) / Nat.pow 2 (k + 1)

/-- The integer nearest to a double, as a double; a half goes away from zero. -/
def roundHalfAway (x : Float) : Float :=
  match ofFloat x with
  | .finite negative significand (.negSucc k) =>
    let rounded := Float.ofNat (roundShift significand (k + 1))
    if negative then -rounded else rounded
  | _ => x

end Double

end AtomicCss
