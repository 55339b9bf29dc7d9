import AtomicCss.Proofs.Decimal.NotANumber
import AtomicCss.Proofs.Value.Trim

/-!
# Canonical numbers

The canonical form of a number with a unit is written as a number with a unit again and is its own
canonical form; but milliseconds beyond the range of doubles become an infinite number of seconds,
which reads as a word.

* `Double.text_cases`, `isNumber_formatNumber`: the text of a finite double has the shape of a
  number.
* `Dimension.magnitude_trimZeros`: zeros that do not count do not change the value.
* `normalDimension_cases`: what the canonical form of a number looks like, and when it has lost its
  unit.
* `Dimension.IsShown`: what can be said of the numbers of all canonical values, font sizes
  included.
-/

namespace AtomicCss

/-! ### Written numbers -/

namespace Decimal

/-- A positional numeral can be read as an unsigned number. -/
theorem isUnsigned_positional (n : Nat) (e : Int) : IsUnsigned (positional n e) := by
  have hdigits : ∀ c ∈ digits n, c.isDigit = true := fun _ hc => isDigit_of_mem_digits hc
  have hzeros : ∀ k, ∀ c ∈ List.replicate k '0', c.isDigit = true := by
    intro k c hc
    rw [List.eq_of_mem_replicate hc]
    decide
  cases e with
  | ofNat zeros =>
    refine .whole ?_ (positional_ne_nil n (.ofNat zeros))
    intro c hc
    rcases List.mem_append.1 hc with hc | hc
    · exact hdigits c hc
    · exact hzeros zeros c hc
  | negSucc k =>
    have hpadded : AllDigits (List.replicate (k + 1 + 1 - (digits n).length) '0' ++ digits n) := by
      intro c hc
      rcases List.mem_append.1 hc with hc | hc
      · exact hzeros _ c hc
      · exact hdigits c hc
    refine .point (fun c hc => hpadded c (List.mem_of_mem_take hc))
      (fun c hc => hpadded c (List.mem_of_mem_drop hc)) (.inr ?_)
    -- There are more digits than places, and there is at least one place.
    have hlength : (digits n).length ≠ 0 := by simpa using digits_ne_nil n
    simp
    omega

/-- The text of a decimal can be read as a number. -/
theorem isNumber_text (d : Decimal) : IsNumber d.text.toList := by
  rw [text, String.toList_ofList]
  cases d.negative with
  | true => exact .signed (.inr rfl) (isUnsigned_positional _ _)
  | false => exact .unsigned (isUnsigned_positional _ _)

end Decimal

/-- The text of a double has the shape of a number, or it is one of three words. -/
theorem Double.text_cases (d : Double) :
    IsNumber d.text.toList ∨ d.text = "inf" ∨ d.text = "-inf" ∨ d = .notANumber := by
  cases d with
  | notANumber => exact .inr (.inr (.inr rfl))
  | infinite negative =>
    cases negative with
    | true => exact .inr (.inr (.inl rfl))
    | false => exact .inr (.inl rfl)
  | finite negative significand exponent =>
    left
    rw [Double.text]
    split
    · exact isNumber_zero
    · exact Decimal.isNumber_text _

/-- The text of a number has the shape of a number unless it is infinite. -/
theorem isNumber_formatNumber {x : Float} (h : x.isNaN = false) :
    IsNumber (formatNumber x).toList ∨ formatNumber x = "inf" ∨ formatNumber x = "-inf" := by
  have hnan := Double.ofFloat_ne_notANumber (isNaN_roundToPlaces h)
  rcases Double.text_cases (Double.ofFloat (roundToPlaces x)) with hnumber | hinf | hinf | hnot
  · exact .inl hnumber
  · exact .inr (.inl hinf)
  · exact .inr (.inr hinf)
  · exact absurd hnot hnan

/-! ### Values -/

theorem IsUnsigned.unsignedMagnitude_eq {cs : List Char} (h : IsUnsigned cs) :
    unsignedMagnitude cs = (unsignedDecimal cs).magnitude := by
  have hne : ∀ word : List Char, 'n' ∈ word ∨ 'N' ∈ word → cs ≠ word := by
    rintro word hword rfl
    rcases hword with hmem | hmem <;> exact absurd (h.mem hmem) (by decide)
  rw [unsignedMagnitude, if_neg (hne _ (by simp)), if_neg (hne _ (by simp))]

namespace Dimension

/-- Trimming zeros does not change how large a number is. -/
theorem magnitude_trimZeros {d : Dimension} (h : IsNumber d.number.toList) :
    (trimZeros d).magnitude = d.magnitude := by
  rw [magnitude, magnitude, trimZeros, String.toList_ofList,
    h.isNumber_trimNumber.isUnsigned.unsignedMagnitude_eq, h.isUnsigned.unsignedMagnitude_eq,
    h.unsignedDecimal_trimNumber]

theorem trimZeros_trimZeros {d : Dimension} (h : IsNumber d.number.toList) :
    trimZeros (trimZeros d) = trimZeros d := by
  simp only [trimZeros, String.toList_ofList, h.trimNumber_trimNumber]

theorem IsWritten.trimZeros {d : Dimension} (h : d.IsWritten) : (trimZeros d).IsWritten where
  number := by
    rw [AtomicCss.trimZeros, String.toList_ofList]
    exact h.number.isNumber_trimNumber
  unit := h.unit

/-- Whether the number is at least ten milliseconds. -/
def isLong (d : Dimension) : Bool :=
  Text.sameIgnoringCase d.unit "ms" && 10.0 ≤ d.magnitude

/-- A number of seconds beyond the range of doubles. -/
def IsInfinite (d : Dimension) : Prop :=
  d = ⟨"inf", "s"⟩ ∨ d = ⟨"-inf", "s"⟩

end Dimension

open Dimension

/-! ### Units -/

/-- The unit of a zero is dropped, put for another one of its kind, or kept. -/
theorem zeroUnit_cases (unit : String) :
    (zeroUnit unit = "" ∧ lengthUnits.contains (Text.asciiLower unit) = true) ∨
      zeroUnit unit = "deg" ∨ zeroUnit unit = "s" ∨ zeroUnit unit = unit := by
  simp only [zeroUnit]
  split
  · next h => exact .inl ⟨rfl, h⟩
  · split
    · exact .inr (.inl rfl)
    · split
      · exact .inr (.inr (.inl rfl))
      · exact .inr (.inr (.inr rfl))

theorem zeroUnit_zeroUnit (unit : String) : zeroUnit (zeroUnit unit) = zeroUnit unit := by
  rcases zeroUnit_cases unit with ⟨h, -⟩ | h | h | h
  · rw [h]; decide
  · rw [h]; decide
  · rw [h]; decide
  · rw [h, h]

theorem isUnit_zeroUnit {unit : String} (h : IsUnit unit.toList) :
    IsUnit (zeroUnit unit).toList := by
  rcases zeroUnit_cases unit with ⟨hunit, -⟩ | hunit | hunit | hunit
  · rw [hunit]; exact isUnit_of_all (by decide)
  · rw [hunit]; exact isUnit_of_all (by decide)
  · rw [hunit]; exact isUnit_of_all (by decide)
  · rwa [hunit]

/-! ### The canonical form -/

/-- Numbers that are not long are only rid of zeros and of the units of zeros. -/
theorem normalDimension_of_not_isLong (inMath : Bool) {d : Dimension} (h : d.isLong = false) :
    normalDimension inMath d = trimZeros (if inMath then d else stripZero d) := by
  have htoSeconds : toSeconds d = d := by
    rw [toSeconds, if_neg]
    simpa [isLong] using h
  rw [normalDimension, htoSeconds]

theorem toList_zero : "0".toList = ['0'] := by decide

theorem trimZeros_zero (unit : String) : trimZeros ⟨"0", unit⟩ = ⟨"0", unit⟩ := by
  rw [trimZeros, toList_zero]
  rfl

/-- A zero in its shortest form is canonical. -/
theorem normalDimension_zero (unit : String) :
    normalDimension false ⟨"0", zeroUnit unit⟩ = ⟨"0", zeroUnit unit⟩ := by
  have hmagnitude : (⟨"0", zeroUnit unit⟩ : Dimension).magnitude = 0.0 := by
    rw [magnitude, toList_zero]
    decide
  have hlong : (⟨"0", zeroUnit unit⟩ : Dimension).isLong = false := by
    rw [isLong, hmagnitude]
    simp [show ¬ (10.0 : Float) ≤ 0.0 by decide]
  have hzero : (⟨"0", zeroUnit unit⟩ : Dimension).isZero = true := by
    rw [isZero, hmagnitude]
    decide
  rw [normalDimension_of_not_isLong false hlong, if_neg (by simp), stripZero, if_pos hzero,
    zeroUnit_zeroUnit, trimZeros_zero]

/-- A canonical number; it may have lost its unit if it is a zero outside of calculations. -/
structure Dimension.IsCanonical (inMath : Bool) (d e : Dimension) : Prop where
  isWritten : e.IsWritten
  normal : normalDimension inMath e = e
  unit : e.unit = "" → d.unit = "" ∨
    inMath = false ∧ e.number = "0" ∧ d.isZero = true ∧
      lengthUnits.contains (Text.asciiLower d.unit) = true

/-- The canonical form of a number that is not in milliseconds or is less than ten of them. -/
theorem isCanonical_of_not_isLong (inMath : Bool) {d : Dimension} (hd : d.IsWritten)
    (hlong : d.isLong = false) : IsCanonical inMath d (normalDimension inMath d) := by
  rw [normalDimension_of_not_isLong inMath hlong]
  by_cases hzero : inMath = false ∧ d.isZero = true
  · obtain ⟨rfl, hzero⟩ := hzero
    have hshort : trimZeros (if false = true then d else stripZero d) = ⟨"0", zeroUnit d.unit⟩ := by
      rw [if_neg (by simp), stripZero, if_pos hzero, trimZeros_zero]
    rw [hshort]
    refine ⟨⟨toList_zero ▸ isNumber_zero, isUnit_zeroUnit hd.unit⟩, normalDimension_zero _, ?_⟩
    intro hunit
    rcases zeroUnit_cases d.unit with ⟨-, hlength⟩ | h | h | h
    · exact .inr ⟨rfl, rfl, hzero, hlength⟩
    · exact absurd (h.symm.trans hunit) (by decide)
    · exact absurd (h.symm.trans hunit) (by decide)
    · exact .inl (h.symm.trans hunit)
  · have hkept : (if inMath then d else stripZero d) = d := by
      cases inMath with
      | true => rfl
      | false =>
        have hne : d.isZero = false := by simpa using hzero
        simp [stripZero, hne]
    rw [hkept]
    -- Trimming keeps the magnitude, so that no other case applies the second time.
    have hmagnitude := magnitude_trimZeros hd.number
    have hlong' : (trimZeros d).isLong = false := by
      rw [← hlong, isLong, isLong, hmagnitude]
      rfl
    have hkept' : (if inMath then trimZeros d else stripZero (trimZeros d)) = trimZeros d := by
      cases inMath with
      | true => rfl
      | false =>
        have hne : (trimZeros d).isZero = false := by
          rw [isZero, hmagnitude, ← isZero]
          simpa using hzero
        simp [stripZero, hne]
    refine ⟨hd.trimZeros, ?_, .inl⟩
    rw [normalDimension_of_not_isLong inMath hlong', hkept', trimZeros_trimZeros hd.number]

/-- Milliseconds are written as seconds, which are a number again or infinite. -/
theorem toSeconds_of_isLong {d : Dimension} (h : d.isLong = true) :
    ((toSeconds d).IsWritten ∧ (toSeconds d).isLong = false ∧ (toSeconds d).unit = "s") ∨
      (toSeconds d).IsInfinite := by
  have hle : (10.0 : Float) ≤ d.magnitude := by simp_all [isLong]
  have hvalue : (d.value / 1000.0).isNaN = false := by
    refine isNaN_div ?_ (by decide)
    rw [value]
    split
    · exact isNaN_neg (isNaN_of_le hle)
    · exact isNaN_of_le hle
  have heq : toSeconds d = ⟨formatNumber (d.value / 1000.0), "s"⟩ :=
    if_pos (by simpa [isLong] using h)
  rw [heq]
  rcases isNumber_formatNumber hvalue with hnumber | hinf | hinf
  · have hs : IsUnit "s".toList := isUnit_of_all (by decide)
    refine .inl ⟨⟨hnumber, hs⟩, ?_, rfl⟩
    have hunit : Text.sameIgnoringCase "s" "ms" = false := by decide
    simp [isLong, hunit]
  · exact .inr (.inl (by rw [hinf]))
  · exact .inr (.inr (by rw [hinf]))

/-- A number that has overflowed is left as it is. -/
theorem Dimension.IsInfinite.trimZeros_eq {inMath : Bool} {e : Dimension} (h : e.IsInfinite) :
    trimZeros (if inMath then e else stripZero e) = e := by
  rcases h with rfl | rfl <;> cases inMath <;> decide

/-- The canonical form of a number is canonical, or it is infinite. -/
theorem normalDimension_cases (inMath : Bool) {d : Dimension} (hd : d.IsWritten) :
    IsCanonical inMath d (normalDimension inMath d) ∨ (normalDimension inMath d).IsInfinite := by
  cases hlong : d.isLong with
  | false => exact .inl (isCanonical_of_not_isLong inMath hd hlong)
  | true =>
    rcases toSeconds_of_isLong hlong with ⟨hwritten, hlong', hunit⟩ | hinfinite
    · left
      have heq : normalDimension inMath d = normalDimension inMath (toSeconds d) := by
        rw [normalDimension_of_not_isLong inMath hlong', normalDimension]
      have hcanonical := isCanonical_of_not_isLong inMath hwritten hlong'
      rw [heq]
      refine ⟨hcanonical.isWritten, hcanonical.normal, ?_⟩
      -- Seconds are no length and keep their unit.
      intro hempty
      rcases hcanonical.unit hempty with hnone | ⟨-, -, -, hlength⟩
      · exact absurd (hunit.symm.trans hnone) (by decide)
      · rw [hunit] at hlength
        exact absurd hlength (by decide)
    · right
      rw [normalDimension, hinfinite.trimZeros_eq]
      exact hinfinite

/-! ### Numbers in canonical values -/

namespace Dimension

/-- Whether the number is infinite, so that it reads as a word. -/
def overflows (d : Dimension) : Bool :=
  d.number == "inf" || d.number == "-inf"

/-- What the numbers of canonical values look like: they have no plus sign, or they are infinite and
have letters for their unit. -/
def IsShown (d : Dimension) : Prop :=
  (d.IsWritten ∧ '+' ∉ d.number.toList) ∨
    (d.overflows = true ∧ d.unit.toList.all Char.isAlpha = true)

theorem overflows_cases {d : Dimension} (h : d.overflows = true) :
    d.number = "inf" ∨ d.number = "-inf" := by
  simpa [overflows] using h

/-- A trimmed number with a unit is in the form in which numbers are shown. -/
theorem isShown_of_isNumber {number : List Char} {unit : String} (hnumber : IsNumber number)
    (hunit : IsUnit unit.toList) : IsShown ⟨String.ofList (trimNumber number), unit⟩ := by
  have hchars : (String.ofList (trimNumber number)).toList = trimNumber number :=
    String.toList_ofList
  refine .inl ⟨⟨?_, hunit⟩, ?_⟩
  · rw [hchars]
    exact hnumber.isNumber_trimNumber
  · rw [hchars]
    exact hnumber.plus_notMem_trimNumber

theorem isShown_formatNumber {x : Float} {unit : String} (hx : x.isNaN = false)
    (hunit : unit.toList.all Char.isAlpha = true) :
    IsShown ⟨String.ofList (trimNumber (formatNumber x).toList), unit⟩ := by
  rcases isNumber_formatNumber hx with hnumber | hinf | hinf
  · exact isShown_of_isNumber hnumber (isUnit_of_all hunit)
  · rw [hinf]
    exact .inr ⟨rfl, hunit⟩
  · rw [hinf]
    exact .inr ⟨rfl, hunit⟩

theorem IsShown.isNaN_value {d : Dimension} (h : d.IsShown) : d.value.isNaN = false := by
  have hmagnitude : d.magnitude.isNaN = false := by
    rw [magnitude]
    rcases h with ⟨hwritten, -⟩ | ⟨hoverflows, -⟩
    · rw [hwritten.number.isUnsigned.unsignedMagnitude_eq]
      exact Decimal.isNaN_magnitude _
    · rcases overflows_cases hoverflows with hnumber | hnumber
      · rw [hnumber]
        decide
      · rw [hnumber]
        decide
  rw [value]
  split
  · exact isNaN_neg hmagnitude
  · exact hmagnitude

/-- A number in its canonical form. -/
theorem isShown_normalDimension (inMath : Bool) {d : Dimension} (hd : d.IsWritten) :
    IsShown (normalDimension inMath d) := by
  have hwritten : ∀ e : Dimension, e.IsWritten →
      IsShown (trimZeros (if inMath then e else stripZero e)) := by
    intro e he
    have hzero : (⟨"0", zeroUnit e.unit⟩ : Dimension).IsWritten :=
      ⟨toList_zero ▸ isNumber_zero, isUnit_zeroUnit he.unit⟩
    cases inMath with
    | true => exact isShown_of_isNumber he.number he.unit
    | false =>
      rw [if_neg (by simp), stripZero]
      split
      · exact isShown_of_isNumber hzero.number hzero.unit
      · exact isShown_of_isNumber he.number he.unit
  -- Long times are put in seconds first, and may overflow there.
  cases hlong : d.isLong with
  | false =>
    rw [normalDimension_of_not_isLong inMath hlong]
    exact hwritten d hd
  | true =>
    rcases toSeconds_of_isLong hlong with ⟨hseconds, -, -⟩ | hinfinite
    · exact hwritten _ hseconds
    · rw [normalDimension, hinfinite.trimZeros_eq]
      rcases hinfinite with hinf | hinf
      · rw [hinf]
        exact .inr ⟨rfl, by decide⟩
      · rw [hinf]
        exact .inr ⟨rfl, by decide⟩

/-- A number that is relative to the root's font size. -/
theorem IsShown.toRem {d : Dimension} (h : d.IsShown) : (toRem d).IsShown := by
  rw [AtomicCss.toRem]
  split
  · exact isShown_formatNumber (isNaN_div h.isNaN_value (by decide)) (by decide)
  · exact h

/-- A number is read again as a number unless it is infinite. -/
theorem IsShown.isWritten_iff {d : Dimension} (h : d.IsShown) :
    d.IsWritten ↔ d.overflows = false := by
  constructor
  · intro hwritten
    have hn : 'n' ∉ d.number.toList := fun hmem => absurd (hwritten.number.mem hmem) (by decide)
    cases hoverflows : d.overflows with
    | false => rfl
    | true =>
      rcases overflows_cases hoverflows with hnumber | hnumber
      · rw [hnumber] at hn
        exact absurd (by decide) hn
      · rw [hnumber] at hn
        exact absurd (by decide) hn
  · intro hoverflows
    rcases h with ⟨hwritten, -⟩ | ⟨htrue, -⟩
    · exact hwritten
    · rw [hoverflows] at htrue
      cases htrue

end Dimension

end AtomicCss
