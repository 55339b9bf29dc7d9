import AtomicCss.Decimal.Shortest

/-!
# How numbers are written

A number is rounded to four decimal places, a half away from zero, and the result is written with
the fewest digits that read back, in positional form. Zero has no sign. The infinities and
not-a-number have texts of their own.
-/

namespace AtomicCss

/-- The number rounded to four decimal places. -/
def roundToPlaces (x : Float) : Float :=
  Double.roundHalfAway (x * 10000.0) / 10000.0

/-- The text of a double with the fewest digits that read back. -/
def Double.text : Double → String
  | .notANumber => "NaN"
  | .infinite negative => if negative then "-inf" else "inf"
  | .finite negative significand exponent =>
    if significand = 0 then "0" else (Decimal.shortest negative significand exponent).text

/-- The text of a number. -/
def formatNumber (x : Float) : String :=
  (Double.ofFloat (roundToPlaces x)).text

end AtomicCss
