import AtomicCss.Decimal.Basic
import AtomicCss.Decimal.Double

/-!
# The shortest decimal that reads back

The reals that round to the double `significand · 2 ^ exponent` form an interval around it. Among
the decimals in that interval, `shortest` picks one on the coarsest grid `10 ^ j` that has a point
there: the nearer of the two neighbours of the double on that grid, and the greater one when both
are equally near.

All comparisons are made between natural numbers: with `exponent - 2` as the common power of two,
the double is `4 · significand` and the ends of the interval are integers too.
-/

namespace AtomicCss.Decimal

/-- The interval of reals that round to a double, in units of `2 ^ scale`. -/
structure Interval where
  /-- The lower end. -/
  low : Nat
  /-- The double itself. -/
  centre : Nat
  /-- The upper end. -/
  high : Nat
  /-- Whether the two ends belong to the interval. -/
  closed : Bool
  /-- The power of two that is the unit. -/
  scale : Int
deriving DecidableEq, Repr

/-- The reals that round to `significand · 2 ^ exponent`. The gap below a power of two is half the
gap above it, except at the least exponent. -/
def roundingInterval (significand : Nat) (exponent : Int) : Interval where
  low := 4 * significand - (if significand = Nat.pow 2 52 ∧ -1074 < exponent then 1 else 2)
  centre := 4 * significand
  high := 4 * significand + 2
  closed := significand % 2 = 0
  scale := exponent - 2

/-- What a count of grid steps of width `10 ^ j` is multiplied by before it is compared. -/
def gridFactor (i : Interval) (j : Int) : Nat :=
  Nat.pow 10 j.toNat * Nat.pow 2 (-i.scale).toNat

/-- What a count of interval units is multiplied by before it is compared with grid steps. -/
def unitFactor (i : Interval) (j : Int) : Nat :=
  Nat.pow 10 (-j).toNat * Nat.pow 2 i.scale.toNat

/-- Whether `d · 10 ^ j` lies in the interval. -/
def Interval.holds (i : Interval) (d : Nat) (j : Int) : Bool :=
  let point := d * gridFactor i j
  let low := i.low * unitFactor i j
  let high := i.high * unitFactor i j
  if i.closed then low ≤ point && point ≤ high else low < point && point < high

/-- The point of the grid `10 ^ j` next below the centre. -/
def Interval.below (i : Interval) (j : Int) : Nat :=
  i.centre * unitFactor i j / gridFactor i j

/-- The neighbour of the centre on the grid `10 ^ j` that lies in the interval: the nearer one if
both do, the greater one if they are equally near. -/
def Interval.gridPoint? (i : Interval) (j : Int) : Option Nat :=
  let d := i.below j
  match i.holds d j, i.holds (d + 1) j with
  | true, true =>
    let centre := i.centre * unitFactor i j
    if centre - d * gridFactor i j < (d + 1) * gridFactor i j - centre then some d else some (d + 1)
  | true, false => some d
  | false, true => some (d + 1)
  | false, false => none

/-- Tries the grids `10 ^ j`, `10 ^ (j - 1)`, … in turn, `tries` of them, and then takes the point
below the centre on the next one. -/
def Interval.coarsest (i : Interval) : Nat → Int → Nat × Int
  | 0, j => (i.below j, j)
  | tries + 1, j =>
    match i.gridPoint? j with
    | some d => (d, j)
    | none => i.coarsest tries (j - 1)

/-- The integer part of `n · 2 ^ exponent`. -/
def scaledFloor (n : Nat) : Int → Nat
  | .ofNat k => n * Nat.pow 2 k
  | .negSucc k => n / Nat.pow 2 (k + 1)

/-- The shortest decimal that reads back as `± significand · 2 ^ exponent`. The search starts at a
power of ten above the number and ends where the number is a multiple of the grid. -/
def shortest (negative : Bool) (significand : Nat) (exponent : Int) : Decimal :=
  let top := (digits (scaledFloor significand exponent)).length
  let found := (roundingInterval significand exponent).coarsest (top + (-exponent).toNat) top
  ⟨negative, found.1, found.2⟩

end AtomicCss.Decimal
