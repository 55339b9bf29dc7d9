import Mathlib
import AtomicCss.Proofs.Decimal.Text

/-!
# Where not-a-number does not come up

Rounding to decimal places multiplies, rounds and divides. The factor is finite and not zero, so
neither zero times infinity nor a quotient of two zeros or two infinities comes up, and the result
is a number if the given one is.

* `isNaN_mul`, `isNaN_div`: products with, and quotients by, a finite number that is not zero.
* `Double.ofFloat_ne_notANumber`: the reading of bits agrees with the arithmetic.
* `isNaN_roundToPlaces`: what is written of a number is a number.
-/

namespace AtomicCss

open Float.Model

/-! ### Packing -/

/-- The bits of not-a-number are those with the greatest exponent and a mantissa other than zero. -/
theorem isNaN_packComponents {sign : UnpackedFloat.Sign} {exponent : BitVec 11}
    {mantissa : BitVec 52} (h : exponent ≠ -1#11 ∨ mantissa = 0#52) :
    (UnpackedFloat.unpack Format.binary64
      (UnpackedFloat.packComponents Format.binary64 sign exponent mantissa)).isNaN = false := by
  rw [UnpackedFloat.unpack]
  simp only [UnpackedFloat.unpackExponent_packComponents,
    UnpackedFloat.unpackMantissa_packComponents]
  split
  · next hexponent =>
    rw [if_pos (h.resolve_left (absurd hexponent))]
    rfl
  · split
    · split <;> rfl
    · rfl

/-- Packing turns numbers that are out of range into infinities. -/
theorem isNaN_pack {u : UnpackedFloat} (h : u.isNaN = false) :
    (Float.Model.pack u).isNaN = false := by
  show (UnpackedFloat.unpack Format.binary64 (UnpackedFloat.pack Format.binary64 u)).isNaN = false
  fun_cases UnpackedFloat.pack with
  | case1 => cases h
  | case2 s => exact isNaN_packComponents (.inr rfl)
  | case3 s => exact isNaN_packComponents (.inr rfl)
  | case4 s m e hm biased hbiased => exact isNaN_packComponents (.inr rfl)
  | case5 s m e hm bits biased hbiased hbits =>
    refine isNaN_packComponents (.inl ?_)
    intro heq
    have hnat : biased % 2 ^ 11 = 2 ^ 11 - 1 := congrArg BitVec.toNat heq
    have hlt : biased + 1 < 2 ^ 11 := Nat.lt_of_not_le hbiased
    omega
  | case6 s m e hm bits biased hbiased hbits => exact isNaN_packComponents (.inl (by decide))

/-! ### Arithmetic -/

/-- Rounding to a format gives a finite number, a zero or an infinity. -/
theorem isNaN_roundWithAccuracy (sign : UnpackedFloat.Sign) (m : Nat) (e : Int)
    (accuracy : UnpackedFloat.Accuracy) :
    (UnpackedFloat.roundWithAccuracy Format.binary64 sign m e accuracy).isNaN = false := by
  simp only [UnpackedFloat.roundWithAccuracy]
  split <;> rfl

/-- A finite number that is not zero. -/
def isNonzero (x : Float) : Bool :=
  match x.toModel.unpack with
  | .finite .. => true
  | _ => false

/-- A nonzero number is a finite one in its unpacked form. -/
theorem exists_finite {x : Float} (h : isNonzero x = true) :
    ∃ sign m e hm, x.toModel.unpack = .finite sign m e hm := by
  unfold isNonzero at h
  split at h
  · next sign m e hm heq => exact ⟨sign, m, e, hm, heq⟩
  · cases h

/-- An operation gives a number if it does so for infinities, zeros and all other numbers. -/
theorem isNaN_pack_apply {x : Float} (f : UnpackedFloat → UnpackedFloat) (hx : x.isNaN = false)
    (hinfinity : ∀ sign, (f (.infinity sign)).isNaN = false)
    (hzero : ∀ sign, (f (.zero sign)).isNaN = false)
    (hfinite : ∀ sign m e hm, (f (.finite sign m e hm)).isNaN = false) :
    (Float.Model.pack (f x.toModel.unpack)).isNaN = false := by
  refine isNaN_pack ?_
  replace hx : x.toModel.unpack.isNaN = false := hx
  cases hunpack : x.toModel.unpack with
  | notANumber => simp [hunpack, UnpackedFloat.isNaN] at hx
  | infinity sign => exact hinfinity sign
  | zero sign => exact hzero sign
  | finite sign m e hm => exact hfinite sign m e hm

/-- A product with a finite nonzero number is a number again. -/
theorem isNaN_mul {x y : Float} (hx : x.isNaN = false) (hy : isNonzero y = true) :
    (x * y).isNaN = false := by
  obtain ⟨sign, m, e, hm, hfinite⟩ := exists_finite hy
  refine isNaN_pack_apply (fun u => u.mul Format.binary64 y.toModel.unpack) hx ?_ ?_ ?_
  all_goals
    rw [hfinite]
    intros
  · rfl
  · rfl
  · exact isNaN_roundWithAccuracy ..

theorem isNaN_div {x y : Float} (hx : x.isNaN = false) (hy : isNonzero y = true) :
    (x / y).isNaN = false := by
  obtain ⟨sign, m, e, hm, hfinite⟩ := exists_finite hy
  refine isNaN_pack_apply (fun u => u.div Format.binary64 y.toModel.unpack) hx ?_ ?_ ?_
  all_goals
    rw [hfinite]
    intros
  · rfl
  · rfl
  · exact isNaN_roundWithAccuracy ..

theorem isNaN_neg {x : Float} (hx : x.isNaN = false) : (-x).isNaN = false :=
  isNaN_pack_apply UnpackedFloat.neg hx (fun _ => rfl) (fun _ => rfl) fun _ _ _ _ => rfl

theorem isNaN_toFloat (n : UInt64) : n.toFloat.isNaN = false := by
  refine isNaN_pack ?_
  simp only [UnpackedFloat.ofUInt64, UnpackedFloat.ofNat, UnpackedFloat.ofInt,
    UnpackedFloat.normalize]
  split
  · exact isNaN_roundWithAccuracy ..
  · rfl
  · exact isNaN_roundWithAccuracy ..

/-- Any decimal numeral is read as a number. -/
theorem isNaN_ofScientific (m : Nat) (e : Int) :
    (UnpackedFloat.ofScientific Format.binary64 m e).isNaN = false := by
  unfold UnpackedFloat.ofScientific
  split
  · rfl
  split
  · rfl
  split
  · rfl
  split
  · exact isNaN_roundWithAccuracy ..
  · exact isNaN_roundWithAccuracy ..

/-- The powers of ten by which a numeral is scaled are finite and nonzero. -/
theorem isNonzero_powerOfTen :
    ∀ x ∈ Float.exactlyRepresentablePowersOfTen, isNonzero x = true := by
  have hall : Float.exactlyRepresentablePowersOfTen.all isNonzero = true := by decide +kernel
  exact Array.all_eq_true'.1 hall

/-- Short decimals are scaled by a power of ten that is exact, and all others are rounded once. -/
theorem isNaN_float_ofScientific (m : Nat) (negative : Bool) (e : Nat) :
    (Float.ofScientific m negative e).isNaN = false := by
  unfold Float.ofScientific
  split
  · cases negative with
    | true =>
      exact isNaN_div (isNaN_toFloat _) (isNonzero_powerOfTen _ (Array.getElem_mem _))
    | false =>
      exact isNaN_mul (isNaN_toFloat _) (isNonzero_powerOfTen _ (Array.getElem_mem _))
  · exact isNaN_pack (isNaN_ofScientific ..)

theorem isNaN_ofNat (n : Nat) : (Float.ofNat n).isNaN = false :=
  isNaN_float_ofScientific n false 0

/-- The double nearest to a decimal is a number. -/
theorem Decimal.isNaN_magnitude (d : Decimal) : d.magnitude.isNaN = false := by
  unfold magnitude
  split
  · decide
  split
  · decide
  · exact isNaN_float_ofScientific ..

/-- A number at least as large as another is no `NaN`, which compares with nothing. -/
theorem isNaN_of_le {x y : Float} (h : x ≤ y) : y.isNaN = false := by
  have hle : x.toModel.unpack.le y.toModel.unpack = true := of_decide_eq_true h
  show y.toModel.unpack.isNaN = false
  cases hunpack : y.toModel.unpack with
  | notANumber =>
    rw [hunpack] at hle
    cases hx : x.toModel.unpack <;> simp [hx, UnpackedFloat.le, UnpackedFloat.compare] at hle
  | _ => rfl

/-! ### Rounding to decimal places -/

section Bits

variable (x : Float)

/-- The exponent field is eleven bits above the mantissa. -/
theorem toNat_unpackExponent :
    (@UnpackedFloat.unpackExponent Format.binary64 x.toModel.toBits.toBitVec).toNat =
      x.toBits.toNat / 2 ^ 52 % 2 ^ 11 := by
  simp [UnpackedFloat.unpackExponent, BitVec.extractLsb, Nat.shiftRight_eq_div_pow, Float.toBits]

/-- The mantissa field is the low fifty-two bits. -/
theorem toNat_unpackMantissa :
    (@UnpackedFloat.unpackMantissa Format.binary64 x.toModel.toBits.toBitVec).toNat =
      x.toBits.toNat % 2 ^ 52 := by
  simp [UnpackedFloat.unpackMantissa, BitVec.extractLsb, Float.toBits]

end Bits

/-- The bits of a double are read in the same way by the arithmetic. -/
theorem Double.ofFloat_ne_notANumber {x : Float} (h : x.isNaN = false) :
    ofFloat x ≠ .notANumber := by
  intro heq
  simp only [ofFloat] at heq
  split at heq
  · next hbiased =>
    split at heq
    · cases heq
    · next hfraction =>
      have hexponent : @UnpackedFloat.unpackExponent Format.binary64 x.toModel.toBits.toBitVec =
          -1#11 := BitVec.eq_of_toNat_eq ((toNat_unpackExponent x).trans hbiased)
      have hmantissa : @UnpackedFloat.unpackMantissa Format.binary64 x.toModel.toBits.toBitVec ≠
          0#52 := by
        intro hzero
        exact hfraction ((toNat_unpackMantissa x).symm.trans (congrArg BitVec.toNat hzero))
      replace h :
          (UnpackedFloat.unpack Format.binary64 x.toModel.toBits.toBitVec).isNaN = false := h
      simp only [UnpackedFloat.unpack, if_pos hexponent, if_neg hmantissa] at h
      cases h
  · split at heq <;> cases heq

/-- Rounding half away from zero keeps a number a number. -/
theorem isNaN_roundHalfAway {x : Float} (h : x.isNaN = false) :
    (Double.roundHalfAway x).isNaN = false := by
  unfold Double.roundHalfAway
  split
  · next negative significand k _ =>
    cases negative with
    | true => exact isNaN_neg (isNaN_ofNat _)
    | false => exact isNaN_ofNat _
  · exact h

/-- A number that is rounded to decimal places is a number still. -/
theorem isNaN_roundToPlaces {x : Float} (h : x.isNaN = false) :
    (roundToPlaces x).isNaN = false :=
  isNaN_div (isNaN_roundHalfAway (isNaN_mul h (by decide))) (by decide)

end AtomicCss
