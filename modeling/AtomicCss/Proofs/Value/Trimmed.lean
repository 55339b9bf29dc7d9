import Mathlib
import AtomicCss.Proofs.Value.Spelling

/-!
# What a trimmed number looks like

A number that is trimmed is still a number, and still the same one: a zero too many or too few would
make a length ten times as long. It has no plus sign, no point that nothing follows, no zero at the
end of a fraction and no whole part of zeros before one. Nothing is left to trim.

* `unsignedValue_eq_decimal`: the number that digits denote, read off the decimal that they give.
* `IsNumber.numberValue_trimNumber`: trimming keeps the number.
* `IsTrimmed`: what a trimmed number does not have; `IsNumber.isTrimmed_trimNumber`.
* `trimNumber_keepsNumber`: all of this for every text that is read as a number.
-/

namespace AtomicCss

open Decimal

/-! ### The number -/

/-- Digits denote the decimal that they give. -/
theorem unsignedValue_eq_decimal (cs : List Char) :
    unsignedValue cs =
      (unsignedDecimal cs).coefficient / 10 ^ (unsignedDecimal cs).exponent.natAbs := by
  have hdigits : ofDigits ((wholePart cs).dropWhile (· == '0') ++ fractionPart cs) =
      ofDigits (wholePart cs ++ fractionPart cs) := by
    rw [ofDigits_append, ofDigits_append, ofDigits_dropWhile]
  rw [unsignedValue_eq, unsignedDecimal_eq, partsValue, decimalOfParts, hdigits, Int.natAbs_neg,
    Int.natAbs_natCast]

theorem unsignedValue_of_decimal_eq {cs ds : List Char}
    (h : unsignedDecimal cs = unsignedDecimal ds) : unsignedValue cs = unsignedValue ds := by
  rw [unsignedValue_eq_decimal, unsignedValue_eq_decimal, h]

/-- A trimmed number denotes the same number. -/
theorem IsNumber.numberValue_trimNumber {cs : List Char} (h : IsNumber cs) :
    numberValue (trimNumber cs) = numberValue cs := by
  rcases h.trimNumber_cases with ⟨hzero, hdecimal⟩ | ⟨digits, hdigits, -, hdecimal, htrim⟩
  · -- The sign of a zero is dropped and does not count.
    have hvalue : unsignedValue (splitSign cs).2 = 0 := by
      rw [unsignedValue_eq_decimal, hdecimal]
      simp
    have hdigit : unsignedValue ['0'] = 0 := by
      rw [unsignedValue_eq_decimal, show unsignedDecimal ['0'] = ⟨false, 0, 0⟩ from rfl]
      simp
    rw [hzero, numberValue, numberValue, hvalue, neg_zero, ite_self]
    exact hdigit
  · rw [htrim, numberValue, numberValue, hdigits.splitSign_signed,
      unsignedValue_of_decimal_eq hdecimal]

/-! ### The characters -/

/-- A number without a plus sign, without a point at its end and, if there is a point, without a
zero at its end and without a whole part of zeros. -/
structure IsTrimmed (cs : List Char) : Prop where
  /-- There is no plus sign. -/
  plus_notMem : '+' ∉ cs
  /-- Something follows the point. -/
  last_ne_point : cs.getLast? ≠ some '.'
  /-- A fraction does not end in a zero. -/
  last_ne_zero : '.' ∈ cs → cs.getLast? ≠ some '0'
  /-- The whole part before a fraction does not consist of zeros. -/
  whole_ne_zeros : '.' ∈ cs →
    ¬ (wholePart (splitSign cs).2 ≠ [] ∧ ∀ c ∈ wholePart (splitSign cs).2, c = '0')

theorem isTrimmed_zero : IsTrimmed ['0'] where
  plus_notMem := by decide
  last_ne_point := by decide
  last_ne_zero := by decide
  whole_ne_zeros := fun h => absurd h (by decide)

section Unsigned

variable {digits : List Char}

/-- A trimmed number is written with its own parts. -/
theorem IsUnsigned.eq_of_trimmed (h : IsUnsigned digits) (htrimmed : trimUnsigned digits = digits) :
    digits = shownWhole (wholePart digits) ++ shownFraction (fractionPart digits) :=
  htrimmed.symm.trans h.hasParts.trim

/-- A point in a trimmed number stands before a fraction. -/
theorem IsUnsigned.eq_of_point_mem (h : IsUnsigned digits)
    (htrimmed : trimUnsigned digits = digits) (hpoint : '.' ∈ digits) :
    fractionPart digits ≠ [] ∧
      digits = shownWhole (wholePart digits) ++ '.' :: fractionPart digits := by
  have hdigits := h.eq_of_trimmed htrimmed
  by_cases hnil : fractionPart digits = []
  · rw [hnil, shownFraction, if_pos rfl, List.append_nil] at hdigits
    rw [hdigits] at hpoint
    exact absurd hpoint h.hasParts.digits.shownWhole.point_notMem
  · rw [shownFraction, if_neg hnil] at hdigits
    exact ⟨hnil, hdigits⟩

/-- The last character of a trimmed number with a fraction is the last one of its fraction. -/
theorem IsUnsigned.getLast?_of_point_mem (h : IsUnsigned digits)
    (htrimmed : trimUnsigned digits = digits) (hpoint : '.' ∈ digits) :
    digits.getLast? = (fractionPart digits).getLast? := by
  obtain ⟨hne, hdigits⟩ := h.eq_of_point_mem htrimmed hpoint
  obtain ⟨c, cs, hfraction⟩ := List.exists_cons_of_ne_nil hne
  calc digits.getLast?
    _ = (shownWhole (wholePart digits) ++ '.' :: fractionPart digits).getLast? :=
      congrArg List.getLast? hdigits
    _ = (fractionPart digits).getLast? := by
      rw [hfraction, List.getLast?_append_cons, List.getLast?_cons_cons]

/-- The whole part of a trimmed number with a fraction is shown, so it does not consist of zeros. -/
theorem IsUnsigned.wholePart_of_point_mem (h : IsUnsigned digits)
    (htrimmed : trimUnsigned digits = digits) (hpoint : '.' ∈ digits) :
    ¬ (wholePart digits ≠ [] ∧ ∀ c ∈ wholePart digits, c = '0') := by
  rintro ⟨hne, hzeros⟩
  obtain ⟨-, hdigits⟩ := h.eq_of_point_mem htrimmed hpoint
  have hwhole : wholePart digits = shownWhole (wholePart digits) := by
    have hparts := wholePart_point h.hasParts.digits.shownWhole (fractionPart digits)
    rwa [← hdigits] at hparts
  have hall : (wholePart digits).all (· == '0') = true :=
    List.all_eq_true.2 fun c hc => beq_iff_eq.2 (hzeros c hc)
  rw [shownWhole, if_pos hall] at hwhole
  exact hne hwhole

/-- A trimmed number does not end in a point. -/
theorem IsUnsigned.last_ne_point (h : IsUnsigned digits)
    (htrimmed : trimUnsigned digits = digits) : digits.getLast? ≠ some '.' := by
  intro hlast
  have hpoint : '.' ∈ digits := List.mem_of_getLast? hlast
  rw [h.getLast?_of_point_mem htrimmed hpoint] at hlast
  exact h.hasParts.fraction_digits.point_notMem (List.mem_of_getLast? hlast)

/-- With a point in it, it does not end in a zero. -/
theorem IsUnsigned.last_ne_zero (h : IsUnsigned digits)
    (htrimmed : trimUnsigned digits = digits) (hpoint : '.' ∈ digits) :
    digits.getLast? ≠ some '0' := by
  rw [h.getLast?_of_point_mem htrimmed hpoint]
  exact getLast?_ne_of_dropEndWhile h.hasParts.fraction_trimmed rfl

end Unsigned

/-- What trimming leaves is trimmed. -/
theorem IsNumber.isTrimmed_trimNumber {cs : List Char} (h : IsNumber cs) :
    IsTrimmed (trimNumber cs) := by
  rcases h.trimNumber_cases with ⟨hzero, -⟩ | ⟨digits, hdigits, htrimmed, -, htrim⟩
  · rw [hzero]
    exact isTrimmed_zero
  · -- A minus sign in front changes neither the end nor the parts.
    have hlast : (trimNumber cs).getLast? = digits.getLast? := by
      rw [htrim]
      split
      · exact List.getLast?_cons_of_ne_nil hdigits.ne_nil
      · rfl
    have hpoint : '.' ∈ trimNumber cs → '.' ∈ digits := by
      rw [htrim]
      split
      · simp
      · exact id
    have hparts : (splitSign (trimNumber cs)).2 = digits := by
      rw [htrim, hdigits.splitSign_signed]
    refine ⟨h.plus_notMem_trimNumber, ?_, ?_, ?_⟩
    · rw [hlast]
      exact hdigits.last_ne_point htrimmed
    · intro hmem
      rw [hlast]
      exact hdigits.last_ne_zero htrimmed (hpoint hmem)
    · intro hmem
      rw [hparts]
      exact hdigits.wholePart_of_point_mem htrimmed (hpoint hmem)

/-- Every text that is read as a number, to its end, is still one after it is trimmed. It denotes
the same number, has no plus sign, no point at its end and, if it has a point, neither a zero at its
end nor a whole part of zeros, and nothing is left to trim. -/
theorem trimNumber_keepsNumber {cs : List Char} (h : readNumber cs = some (cs, [])) :
    readNumber (trimNumber cs) = some (trimNumber cs, []) ∧
      numberValue (trimNumber cs) = numberValue cs ∧ IsTrimmed (trimNumber cs) ∧
      trimNumber (trimNumber cs) = trimNumber cs := by
  have hnumber : IsNumber cs := (readNumber_eq_some h).1
  exact ⟨hnumber.isNumber_trimNumber.readNumber, hnumber.numberValue_trimNumber,
    hnumber.isTrimmed_trimNumber, hnumber.trimNumber_trimNumber⟩

theorem trimNumber_keepsNumber_padded :
    let cs := "-00.50".toList
    readNumber cs = some (cs, []) ∧ trimNumber cs = "-.5".toList ∧
      numberValue "-.5".toList = numberValue cs ∧ IsTrimmed "-.5".toList := by
  intro cs
  have hread : readNumber cs = some (cs, []) := by decide
  have htrim : trimNumber cs = "-.5".toList := by decide
  obtain ⟨-, hvalue, htrimmed, -⟩ := trimNumber_keepsNumber hread
  rw [htrim] at hvalue htrimmed
  exact ⟨hread, htrim, hvalue, htrimmed⟩

end AtomicCss
