/-!
# Sets of characters given by ranges of code points

A class of characters beyond ASCII is a table of closed ranges of code points. Every such table of
the project is kept in increasing order, and a character belongs to the class when one of the
ranges holds it.
-/

namespace AtomicCss.Text

/-- A closed range of code points. -/
structure CodeRange where
  /-- The least code point of the range. -/
  first : Nat
  /-- The greatest code point of the range. -/
  last : Nat
deriving DecidableEq, Repr

/-- Whether the range holds the character. -/
def CodeRange.holds (r : CodeRange) (c : Char) : Bool :=
  r.first ≤ c.toNat && c.toNat ≤ r.last

/-- Whether one of the ranges holds the character. -/
def inRanges (ranges : List CodeRange) (c : Char) : Bool :=
  ranges.any (·.holds c)

end AtomicCss.Text
