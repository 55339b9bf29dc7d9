import AtomicCss.Decimal.Format

/-!
# The characters of written numbers

A finite number is written with digits, a minus sign and a point, and nothing else; the infinities
and not-a-number have words of their own.

* `Decimal.isPositional_of_mem_text`: the characters of a decimal in positional form.
* `formatNumber_cases`: what the text of a number looks like.
-/

namespace AtomicCss

/-- A character of a finite number. -/
def isPositional (c : Char) : Bool :=
  c.isDigit || c == '-' || c == '.'

namespace Decimal

/-- The numeral of a natural number holds digits only. -/
theorem isDigit_of_mem_digits {n : Nat} {c : Char} (h : c ∈ digits n) : c.isDigit = true :=
  Nat.isDigit_of_mem_toDigits (by decide) (by decide) h

theorem digits_ne_nil (n : Nat) : digits n ≠ [] :=
  Nat.toDigits_ne_nil

theorem isPositional_of_mem_zeros {n : Nat} {c : Char} (h : c ∈ List.replicate n '0') :
    isPositional c = true := by
  rw [List.eq_of_mem_replicate h]
  decide

theorem isPositional_of_mem_digits {n : Nat} {c : Char} (h : c ∈ digits n) :
    isPositional c = true := by
  simp [isPositional, isDigit_of_mem_digits h]

/-- Setting the point adds a point and zeros, both characters of a positional numeral. -/
theorem isPositional_of_mem_withPoint {n places : Nat} {c : Char} (h : c ∈ withPoint n places) :
    isPositional c = true := by
  -- The point is put into the digits with zeros before them.
  have hpadded : ∀ d ∈ List.replicate (places + 1 - (digits n).length) '0' ++ digits n,
      isPositional d = true := by
    intro d hd
    rcases List.mem_append.1 hd with hd | hd
    · exact isPositional_of_mem_zeros hd
    · exact isPositional_of_mem_digits hd
  rcases List.mem_append.1 h with h | h
  · exact hpadded c (List.mem_of_mem_take h)
  · rcases List.mem_cons.1 h with rfl | h
    · decide
    · exact hpadded c (List.mem_of_mem_drop h)

/-- A numeral without an exponent holds digits and a point only. -/
theorem isPositional_of_mem_positional {n : Nat} {e : Int} {c : Char} (h : c ∈ positional n e) :
    isPositional c = true := by
  cases e with
  | ofNat zeros =>
    rcases List.mem_append.1 h with h | h
    · exact isPositional_of_mem_digits h
    · exact isPositional_of_mem_zeros h
  | negSucc k => exact isPositional_of_mem_withPoint h

theorem positional_ne_nil (n : Nat) (e : Int) : positional n e ≠ [] := by
  cases e with
  | ofNat zeros => simp [positional, digits_ne_nil]
  | negSucc k => simp [positional, withPoint]

/-- A decimal is written with digits, a minus sign and a point. -/
theorem isPositional_of_mem_text {d : Decimal} {c : Char} (h : c ∈ d.text.toList) :
    isPositional c = true := by
  rw [text, String.toList_ofList] at h
  rcases List.mem_append.1 h with h | h
  · cases hneg : d.negative with
    | true =>
      rw [hneg, if_pos rfl, List.mem_singleton] at h
      rw [h]
      decide
    | false => simp [hneg] at h
  · exact isPositional_of_mem_positional h

theorem text_ne_empty (d : Decimal) : d.text.toList ≠ [] := by
  rw [text, String.toList_ofList]
  simp [positional_ne_nil]

end Decimal

/-- The text of a number is in positional form, or it is one of three words. -/
theorem formatNumber_cases (x : Float) :
    ((formatNumber x).toList ≠ [] ∧ ∀ c ∈ (formatNumber x).toList, isPositional c = true) ∨
      formatNumber x = "inf" ∨ formatNumber x = "-inf" ∨ formatNumber x = "NaN" := by
  unfold formatNumber
  cases Double.ofFloat (roundToPlaces x) with
  | notANumber => exact .inr (.inr (.inr rfl))
  | infinite negative =>
    cases negative with
    | true => exact .inr (.inr (.inl rfl))
    | false => exact .inr (.inl rfl)
  | finite negative significand exponent =>
    left
    by_cases hzero : significand = 0
    · rw [Double.text, if_pos hzero]
      exact ⟨by decide, List.all_eq_true.1 (by decide)⟩
    · rw [Double.text, if_neg hzero]
      exact ⟨Decimal.text_ne_empty _, fun c hc => Decimal.isPositional_of_mem_text hc⟩

end AtomicCss
