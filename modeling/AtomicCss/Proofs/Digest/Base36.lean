import AtomicCss.Digest.Base36
import Mathlib.Data.Nat.Digits.Lemmas

/-!
# Numerals in base 36

A number is written in base 36 without zeros in front, so each number has one numeral and each
numeral is that of one number. A digest that is folded to 32 bits needs seven digits at most.

* `read`: the number that a numeral stands for.
* `write_eq_digits`, `read_eq_ofDigits`: writing and reading in terms of the digits of a number.
* `write_eq_iff`: the numeral of a number is the only one that is read as that number.
* `length_write_le_iff`: how many digits a number needs.
-/

namespace AtomicCss.Base36

/-! ### Digits -/

/-- The value of a digit. -/
def digitValue (c : Char) : Nat :=
  if c.isDigit then c.toNat - '0'.toNat else c.toNat - 'a'.toNat + 10

/-- The number whose digits in base 36 are given. -/
def read (cs : List Char) : Nat :=
  cs.foldl (fun n c => 36 * n + digitValue c) 0

/-- The digits in the order of their values. -/
def alphabet : List Char :=
  "0123456789abcdefghijklmnopqrstuvwxyz".toList

/-- Every digit is written with a character of the alphabet that has its value. -/
theorem digitChar_spec {n : Nat} (h : n < 36) :
    digitChar n ∈ alphabet ∧ digitValue (digitChar n) = n := by
  revert n
  decide

/-- Every character of the alphabet is the digit of its value. -/
theorem digitValue_spec {c : Char} (h : c ∈ alphabet) :
    digitValue c < 36 ∧ digitChar (digitValue c) = c := by
  have hall : alphabet.all
      (fun c => decide (digitValue c < 36 ∧ digitChar (digitValue c) = c)) = true := by decide
  exact of_decide_eq_true (List.all_eq_true.1 hall c h)

/-- Zero is the only digit without value. -/
theorem digitValue_eq_zero_iff {c : Char} (h : c ∈ alphabet) : digitValue c = 0 ↔ c = '0' := by
  constructor
  · intro hzero
    have hc := (digitValue_spec h).2
    rw [hzero] at hc
    exact hc.symm
  · rintro rfl
    rfl

/-! ### Numerals -/

/-- Whether a text is a numeral: digits, of which the first is zero only if it is alone. -/
structure IsNumeral (cs : List Char) : Prop where
  /-- There is a digit. -/
  ne_nil : cs ≠ []
  /-- There is nothing but digits. -/
  mem_alphabet : ∀ c ∈ cs, c ∈ alphabet
  /-- There are no zeros in front. -/
  head : cs.head? = some '0' → cs = ['0']

theorem write_zero : write 0 = ['0'] := by
  rw [write]
  rfl

/-- Writing goes from the last digit to the first. -/
theorem write_eq_digits {n : Nat} (h : n ≠ 0) :
    write n = ((Nat.digits 36 n).map digitChar).reverse := by
  fun_induction write n with
  | case1 n hlt => rw [Nat.digits_of_lt 36 n h hlt, List.map_singleton, List.reverse_singleton]
  | case2 n hge ih =>
    rw [Nat.digits_eq_cons_digits_div (by decide) h, List.map_cons, List.reverse_cons,
      ih (by omega)]

/-- Reading goes from the first digit to the last. -/
theorem read_eq_ofDigits (cs : List Char) :
    read cs = Nat.ofDigits 36 (cs.reverse.map digitValue) := by
  rw [Nat.ofDigits_eq_foldr, List.foldr_map, List.foldr_reverse]
  simp only [read, Nat.cast_id, Nat.add_comm]

/-- A number is read back from its numeral. -/
theorem read_write (n : Nat) : read (write n) = n := by
  by_cases hn : n = 0
  · rw [hn, write_zero]
    rfl
  · have hvalues : ((Nat.digits 36 n).map digitChar).map digitValue = Nat.digits 36 n := by
      rw [List.map_map]
      refine (List.map_congr_left fun d hd => ?_).trans (List.map_id _)
      exact (digitChar_spec (Nat.digits_lt_base (by decide) hd)).2
    rw [read_eq_ofDigits, write_eq_digits hn, List.reverse_reverse, hvalues, Nat.ofDigits_digits]

/-- What is written is a numeral: digits of the alphabet with no leading zero. -/
theorem isNumeral_write (n : Nat) : IsNumeral (write n) := by
  by_cases hn : n = 0
  · rw [hn, write_zero]
    refine ⟨List.cons_ne_nil _ _, fun c hc => ?_, fun _ => rfl⟩
    rw [List.mem_singleton.1 hc]
    decide
  · have hdigits : Nat.digits 36 n ≠ [] := Nat.digits_ne_nil_iff_ne_zero.2 hn
    rw [write_eq_digits hn]
    refine ⟨by simpa using hdigits, fun c hc => ?_, fun hzero => ?_⟩
    · obtain ⟨d, hd, rfl⟩ := List.mem_map.1 (List.mem_reverse.1 hc)
      exact (digitChar_spec (Nat.digits_lt_base (by decide) hd)).1
    · -- The first character is the digit that counts most, and that one is not zero.
      rw [List.head?_reverse, List.getLast?_map, List.getLast?_eq_some_getLast hdigits] at hzero
      have hlt := Nat.digits_lt_base (by decide) (List.getLast_mem hdigits)
      have hvalue := (digitChar_spec hlt).2
      rw [Option.some.inj hzero] at hvalue
      exact absurd hvalue.symm (Nat.getLast_digit_ne_zero 36 hn)

/-- A numeral is written back as it was read. -/
theorem write_read {cs : List Char} (h : IsNumeral cs) : write (read cs) = cs := by
  by_cases hzero : cs.head? = some '0'
  · rw [h.head hzero]
    exact write_zero
  · have halphabet : ∀ c ∈ cs.reverse, c ∈ alphabet := by simpa using h.mem_alphabet
    have hne : cs.reverse.map digitValue ≠ [] := by simpa using h.ne_nil
    have hdigits : Nat.digits 36 (read cs) = cs.reverse.map digitValue := by
      rw [read_eq_ofDigits]
      refine Nat.digits_ofDigits 36 (by decide) _ (fun d hd => ?_) (fun hne => ?_)
      · obtain ⟨c, hc, rfl⟩ := List.mem_map.1 hd
        exact (digitValue_spec (halphabet c hc)).1
      · -- The leading digit is not zero, for else the numeral would be a single zero.
        have hfirst := h.mem_alphabet _ (List.head_mem h.ne_nil)
        rw [List.getLast_map, List.getLast_reverse, Ne, digitValue_eq_zero_iff hfirst]
        intro hhead
        exact hzero (by rw [List.head?_eq_some_head h.ne_nil, hhead])
    have hread : read cs ≠ 0 := by
      rw [← Nat.digits_ne_nil_iff_ne_zero (b := 36), hdigits]
      exact hne
    have hchars : (cs.reverse.map digitValue).map digitChar = cs.reverse := by
      rw [List.map_map]
      exact (List.map_congr_left fun c hc => (digitValue_spec (halphabet c hc)).2).trans
        (List.map_id _)
    rw [write_eq_digits hread, hdigits, hchars, List.reverse_reverse]

/-- The numeral of a number is the only one that is read as that number. -/
theorem write_eq_iff {n : Nat} {cs : List Char} : write n = cs ↔ IsNumeral cs ∧ read cs = n := by
  constructor
  · rintro rfl
    exact ⟨isNumeral_write n, read_write n⟩
  · rintro ⟨hcs, rfl⟩
    exact write_read hcs

example : write 0xffffffff = "1z141z3".toList := by decide +kernel

/-- Only zero is written with a zero in front. -/
theorem eq_zero_of_head?_write {n : Nat} (h : (write n).head? = some '0') : n = 0 := by
  have hread := read_write n
  rw [(isNumeral_write n).head h] at hread
  exact hread.symm

/-- The numbers that are written with at most `k` digits are those below the power of the base. -/
theorem length_write_le_iff {n k : Nat} (hk : 0 < k) : (write n).length ≤ k ↔ n < 36 ^ k := by
  by_cases hn : n = 0
  · rw [hn, write_zero, List.length_singleton]
    exact iff_of_true hk (Nat.pow_pos (by decide))
  · rw [write_eq_digits hn, List.length_reverse, List.length_map,
      Nat.digits_length_le_iff (by decide)]

/-- Seven digits are enough for 32 bits. -/
theorem length_write_toNat_le (v : UInt32) : (write v.toNat).length ≤ 7 := by
  rw [length_write_le_iff (by decide)]
  exact v.toNat_lt.trans (by decide)

end AtomicCss.Base36
