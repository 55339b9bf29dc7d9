import Mathlib
import AtomicCss.Proofs.Value.Whitespace

/-!
# How numbers are spelled

A number has many spellings: with a plus sign or without, with zeros in front of the whole part,
with zeros at the end of the fraction, with a point that nothing follows. All spellings of a number
have the same digits that count, and once they are trimmed they differ at most in the zeros in
front. Those of a whole part that is zero go with it; those in front of another whole part stay, so
that two spellings of a number that is not zero have one canonical form if and only if they have as
many of them.

* `numberValue`: the rational number that a text denotes.
* `parts_eq_of_partsValue_eq`: the digits that count are determined by the number.
* `paddingZeros`: the zeros in front that stay.
* `normalValue_spelling`: when two spellings of a length have one canonical form.
-/

namespace AtomicCss

open Text (Stops)

/-! ### Digits -/

namespace Decimal

/-- The number that a digit stands for. -/
def digitOf (c : Char) : Nat :=
  c.toNat - '0'.toNat

theorem toNat_of_isDigit {c : Char} (h : c.isDigit = true) : 48 ≤ c.toNat ∧ c.toNat ≤ 57 := by
  simp only [Char.isDigit, Bool.and_eq_true, decide_eq_true_eq, ge_iff_le] at h
  exact ⟨h.1, h.2⟩

theorem digitOf_lt {c : Char} (h : c.isDigit = true) : digitOf c < 10 := by
  obtain ⟨-, hle⟩ := toNat_of_isDigit h
  have hzero : '0'.toNat = 48 := rfl
  rw [digitOf, hzero]
  omega

theorem digitOf_inj {c d : Char} (hc : c.isDigit = true) (hd : d.isDigit = true)
    (h : digitOf c = digitOf d) : c = d := by
  obtain ⟨hcle, -⟩ := toNat_of_isDigit hc
  obtain ⟨hdle, -⟩ := toNat_of_isDigit hd
  have hzero : '0'.toNat = 48 := rfl
  rw [digitOf, digitOf, hzero] at h
  exact Char.toNat_inj.1 (by omega)

/-- The digits of a text, least significant first. -/
def digitsOf (cs : List Char) : List Nat :=
  cs.reverse.map digitOf

theorem ofDigits_concat (cs : List Char) (c : Char) :
    ofDigits (cs ++ [c]) = 10 * ofDigits cs + digitOf c := by
  simp [ofDigits, pushDigit, digitOf]

theorem ofDigits_eq (cs : List Char) : ofDigits cs = Nat.ofDigits 10 (digitsOf cs) := by
  induction cs using List.reverseRecOn with
  | nil => rfl
  | append_singleton cs c ih =>
    rw [ofDigits_concat, ih]
    simp [digitsOf, Nat.ofDigits_cons, Nat.add_comm]

/-- The number of digits in a row, by place value. -/
theorem ofDigits_append (cs ds : List Char) :
    ofDigits (cs ++ ds) = ofDigits cs * 10 ^ ds.length + ofDigits ds := by
  simp only [ofDigits_eq, digitsOf, List.reverse_append, List.map_append, Nat.ofDigits_append,
    List.length_map, List.length_reverse]
  ring

section Digits

variable {cs ds : List Char}

theorem digitsOf_lt (h : AllDigits cs) : ∀ n ∈ digitsOf cs, n < 10 := by
  intro n hn
  obtain ⟨c, hc, rfl⟩ := List.mem_map.1 hn
  exact digitOf_lt (h c (List.mem_reverse.1 hc))

theorem digitsOf_inj (hcs : AllDigits cs) (hds : AllDigits ds)
    (h : digitsOf cs = digitsOf ds) : cs = ds := by
  induction cs using List.reverseRecOn generalizing ds with
  | nil =>
    have hnil : ds = [] := by simpa [digitsOf] using h.symm
    exact hnil.symm
  | append_singleton cs c ih =>
    rcases List.eq_nil_or_concat' ds with rfl | ⟨ds, d, rfl⟩
    · simp [digitsOf] at h
    · obtain ⟨hcs, hc⟩ := List.forall_mem_append.1 hcs
      obtain ⟨hds, hd⟩ := List.forall_mem_append.1 hds
      simp only [digitsOf, List.reverse_append, List.map_append] at h
      obtain ⟨hlast, hrest⟩ := List.cons.inj h
      rw [ih hcs hds hrest, digitOf_inj (hc c (by simp)) (hd d (by simp)) hlast]

theorem ofDigits_lt (h : AllDigits cs) : ofDigits cs < 10 ^ cs.length := by
  have hlt := Nat.ofDigits_lt_base_pow_length (by norm_num) (digitsOf_lt h)
  rwa [← ofDigits_eq, digitsOf, List.length_map, List.length_reverse] at hlt

/-- Digits of one length are determined by their number. -/
theorem eq_of_ofDigits_eq_of_length (hcs : AllDigits cs) (hds : AllDigits ds)
    (hlength : cs.length = ds.length) (h : ofDigits cs = ofDigits ds) : cs = ds := by
  refine digitsOf_inj hcs hds ?_
  refine Nat.ofDigits_inj_of_len_eq (b := 10) (by norm_num) (by simpa [digitsOf] using hlength)
    (digitsOf_lt hcs) (digitsOf_lt hds) ?_
  rw [← ofDigits_eq, ← ofDigits_eq, h]

/-- Digits without zeros in front are those of their number. -/
theorem digits_ofDigits (hcs : AllDigits cs) (hstops : Stops (· == '0') cs) :
    Nat.digits 10 (ofDigits cs) = digitsOf cs := by
  rw [ofDigits_eq]
  refine Nat.digits_ofDigits 10 (by norm_num) _ (digitsOf_lt hcs) fun hne => ?_
  cases cs with
  | nil => exact absurd rfl hne
  | cons c cs =>
    have hc : c ≠ '0' := by simpa using Text.stops_cons.1 hstops
    have hlast : (digitsOf (c :: cs)).getLast hne = digitOf c := by simp [digitsOf]
    rw [hlast]
    exact fun hzero => hc (digitOf_inj (hcs c List.mem_cons_self) (by decide) hzero)

/-- Numerals without leading zeros are told by the numbers that they stand for. -/
theorem eq_of_ofDigits_eq (hcs : AllDigits cs) (hds : AllDigits ds)
    (hstops : Stops (· == '0') cs) (hstops' : Stops (· == '0') ds)
    (h : ofDigits cs = ofDigits ds) : cs = ds := by
  refine digitsOf_inj hcs hds ?_
  rw [← digits_ofDigits hcs hstops, ← digits_ofDigits hds hstops', h]

end Digits

/-- Zeros in front do not count. -/
theorem ofDigits_dropWhile (cs : List Char) : ofDigits (cs.dropWhile (· == '0')) = ofDigits cs := by
  induction cs with
  | nil => rfl
  | cons c cs ih =>
    by_cases hc : c = '0'
    · subst hc
      exact ih
    · rw [List.dropWhile_cons_of_neg (by simpa using hc)]

end Decimal

open Decimal Node

/-! ### The number that is denoted -/

/-- The number with the given digits before and after the point. -/
def partsValue (whole fraction : List Char) : ℚ :=
  ofDigits (whole ++ fraction) / 10 ^ fraction.length

/-- The number that digits with an optional point denote. -/
def unsignedValue (cs : List Char) : ℚ :=
  partsValue (wholePart cs) ((cs.dropWhile (· != '.')).drop 1)

/-- The number that digits with an optional sign and an optional point denote. -/
def numberValue (cs : List Char) : ℚ :=
  if (splitSign cs).1 then -unsignedValue (splitSign cs).2 else unsignedValue (splitSign cs).2

/-- Zeros at the end of the fraction do not count. -/
theorem partsValue_dropEndWhile (whole fraction : List Char) :
    partsValue whole (dropEndWhile (· == '0') fraction) = partsValue whole fraction := by
  induction fraction using List.reverseRecOn with
  | nil => rfl
  | append_singleton fraction c ih =>
    by_cases hc : c = '0'
    · subst hc
      have hzero : digitOf '0' = 0 := rfl
      rw [dropEndWhile_concat rfl, ih, partsValue, partsValue, ← List.append_assoc,
        ofDigits_concat, hzero, List.length_append, List.length_singleton, pow_succ]
      push_cast
      field_simp
      ring
    · have hdrop : dropEndWhile (· == '0') (fraction ++ [c]) = fraction ++ [c] :=
        List.rdropWhile_concat_neg _ _ _ (by simpa using hc)
      rw [hdrop]

theorem unsignedValue_eq (cs : List Char) :
    unsignedValue cs = partsValue (wholePart cs) (fractionPart cs) :=
  (partsValue_dropEndWhile _ _).symm

theorem partsValue_nonneg (whole fraction : List Char) : 0 ≤ partsValue whole fraction := by
  unfold partsValue
  positivity

/-- The sign apart, a number denotes what its digits do. -/
theorem abs_numberValue (cs : List Char) : |numberValue cs| = unsignedValue (splitSign cs).2 := by
  have habs : |unsignedValue (splitSign cs).2| = unsignedValue (splitSign cs).2 :=
    abs_of_nonneg (partsValue_nonneg _ _)
  unfold numberValue
  split
  · rw [abs_neg, habs]
  · exact habs

theorem unsignedValue_eq_of_numberValue_eq {cs ds : List Char}
    (h : numberValue cs = numberValue ds) :
    unsignedValue (splitSign cs).2 = unsignedValue (splitSign ds).2 := by
  rw [← abs_numberValue, ← abs_numberValue, h]

/-! ### Digits that count -/

section Parts

variable {w₁ w₂ f₁ f₂ : List Char}

/-- A fraction without zeros at its end is not longer than needed. -/
theorem length_le_of_partsValue_eq (hf₂ : AllDigits f₂)
    (htrimmed : dropEndWhile (· == '0') f₂ = f₂)
    (h : ofDigits (w₁ ++ f₁) * 10 ^ f₂.length = ofDigits (w₂ ++ f₂) * 10 ^ f₁.length) :
    f₂.length ≤ f₁.length := by
  by_contra hlonger
  obtain ⟨k, hk⟩ : ∃ k, f₂.length = f₁.length + (k + 1) :=
    ⟨f₂.length - f₁.length - 1, by omega⟩
  have hdvd : ofDigits (w₂ ++ f₂) = 10 * (ofDigits (w₁ ++ f₁) * 10 ^ k) := by
    have hpos : 0 < 10 ^ f₁.length := by positivity
    refine Nat.eq_of_mul_eq_mul_right hpos ?_
    rw [← h, hk]
    ring
  -- So the last digit of the fraction is a zero.
  obtain rfl | ⟨f, c, rfl⟩ := List.eq_nil_or_concat' f₂
  · simp at hk
  · have hc : c.isDigit = true := hf₂ c (by simp)
    have hlt := digitOf_lt hc
    rw [← List.append_assoc, ofDigits_concat] at hdvd
    have hzero : c = '0' := digitOf_inj hc (by decide) (show digitOf c = 0 by omega)
    subst hzero
    exact getLast?_ne_of_dropEndWhile htrimmed (c := '0') rfl (List.getLast?_concat)

/-- The digits that count are determined by the number. -/
theorem parts_eq_of_partsValue_eq (hw₁ : AllDigits w₁) (hf₁ : AllDigits f₁)
    (htrimmed₁ : dropEndWhile (· == '0') f₁ = f₁) (hw₂ : AllDigits w₂) (hf₂ : AllDigits f₂)
    (htrimmed₂ : dropEndWhile (· == '0') f₂ = f₂) (h : partsValue w₁ f₁ = partsValue w₂ f₂) :
    w₁.dropWhile (· == '0') = w₂.dropWhile (· == '0') ∧ f₁ = f₂ := by
  have hcross : ofDigits (w₁ ++ f₁) * 10 ^ f₂.length = ofDigits (w₂ ++ f₂) * 10 ^ f₁.length := by
    rw [partsValue, partsValue, div_eq_div_iff (by positivity) (by positivity)] at h
    exact_mod_cast h
  have hlength : f₁.length = f₂.length :=
    Nat.le_antisymm (length_le_of_partsValue_eq hf₁ htrimmed₁ hcross.symm)
      (length_le_of_partsValue_eq hf₂ htrimmed₂ hcross)
  have hpos : 0 < 10 ^ f₂.length := by positivity
  have hsame : ofDigits w₁ * 10 ^ f₂.length + ofDigits f₁ =
      ofDigits w₂ * 10 ^ f₂.length + ofDigits f₂ := by
    rw [hlength] at hcross
    have hdigits := Nat.eq_of_mul_eq_mul_right hpos hcross
    rwa [ofDigits_append, ofDigits_append, hlength] at hdigits
  have hlt₁ : ofDigits f₁ < 10 ^ f₂.length := hlength ▸ ofDigits_lt hf₁
  have hlt₂ := ofDigits_lt hf₂
  -- Division with remainder: the fraction is the remainder.
  have hwhole : ofDigits w₁ = ofDigits w₂ := by
    have hdiv := congrArg (· / 10 ^ f₂.length) hsame
    simpa [Nat.mul_add_div hpos, Nat.mul_comm, Nat.div_eq_of_lt, hlt₁, hlt₂] using hdiv
  have hfraction : ofDigits f₁ = ofDigits f₂ := by
    rw [hwhole] at hsame
    omega
  refine ⟨?_, eq_of_ofDigits_eq_of_length hf₁ hf₂ hlength hfraction⟩
  refine eq_of_ofDigits_eq ?_ ?_ (Text.stops_dropWhile _ _) (Text.stops_dropWhile _ _) ?_
  · exact fun c hc => hw₁ c ((List.dropWhile_sublist _).subset hc)
  · exact fun c hc => hw₂ c ((List.dropWhile_sublist _).subset hc)
  · rw [ofDigits_dropWhile, ofDigits_dropWhile, hwhole]

end Parts

/-- Spellings of one number, up to its sign, have the same digits that count. -/
theorem IsUnsigned.parts_eq {cs ds : List Char} (hcs : IsUnsigned cs) (hds : IsUnsigned ds)
    (h : unsignedValue cs = unsignedValue ds) :
    (wholePart cs).dropWhile (· == '0') = (wholePart ds).dropWhile (· == '0') ∧
      fractionPart cs = fractionPart ds := by
  obtain ⟨hw₁, hf₁, htrimmed₁, -, -⟩ := hcs.hasParts
  obtain ⟨hw₂, hf₂, htrimmed₂, -, -⟩ := hds.hasParts
  rw [unsignedValue_eq, unsignedValue_eq] at h
  exact parts_eq_of_partsValue_eq hw₁ hf₁ htrimmed₁ hw₂ hf₂ htrimmed₂ h

/-- Numerals of one number are read as one decimal. -/
theorem IsUnsigned.decimal_eq {cs ds : List Char} (hcs : IsUnsigned cs) (hds : IsUnsigned ds)
    (h : unsignedValue cs = unsignedValue ds) : unsignedDecimal cs = unsignedDecimal ds := by
  obtain ⟨hwhole, hfraction⟩ := hcs.parts_eq hds h
  rw [unsignedDecimal_eq, unsignedDecimal_eq, decimalOfParts, decimalOfParts, hwhole, hfraction]

theorem Dimension.isZero_of_decimal {d : Dimension} (h : IsNumber d.number.toList)
    (hdecimal : unsignedDecimal (splitSign d.number.toList).2 = ⟨false, 0, 0⟩) :
    d.isZero = true := by
  rw [isZero, magnitude, h.isUnsigned.unsignedMagnitude_eq, hdecimal]
  decide

/-- Whether a number is zero depends on its decimal only. -/
theorem Dimension.isZero_eq {d e : Dimension} (hd : IsNumber d.number.toList)
    (he : IsNumber e.number.toList)
    (h : unsignedDecimal (splitSign d.number.toList).2 =
      unsignedDecimal (splitSign e.number.toList).2) : d.isZero = e.isZero := by
  rw [isZero, isZero, magnitude, magnitude, hd.isUnsigned.unsignedMagnitude_eq,
    he.isUnsigned.unsignedMagnitude_eq, h]

/-! ### Zeros in front -/

/-- The number of zeros in front of a whole part that is not zero. -/
def paddingZeros (cs : List Char) : Nat :=
  ((shownWhole (wholePart (splitSign cs).2)).takeWhile (· == '0')).length

theorem all_zero_iff {whole : List Char} :
    whole.all (· == '0') = true ↔ whole.dropWhile (· == '0') = [] := by
  rw [List.dropWhile_eq_nil_iff, List.all_eq_true]

/-- Whole parts of one number are shown alike if they have as many zeros in front. -/
theorem shownWhole_eq_iff {w₁ w₂ : List Char}
    (h : w₁.dropWhile (· == '0') = w₂.dropWhile (· == '0')) :
    shownWhole w₁ = shownWhole w₂ ↔
      ((shownWhole w₁).takeWhile (· == '0')).length =
        ((shownWhole w₂).takeWhile (· == '0')).length := by
  refine ⟨fun heq => by rw [heq], fun hlength => ?_⟩
  unfold shownWhole at hlength ⊢
  by_cases hall : w₁.all (· == '0') = true
  · have hall' : w₂.all (· == '0') = true := all_zero_iff.2 (h ▸ all_zero_iff.1 hall)
    rw [if_pos hall, if_pos hall']
  · have hall' : ¬ w₂.all (· == '0') = true :=
      fun hall' => hall (all_zero_iff.2 (h ▸ all_zero_iff.1 hall'))
    rw [if_neg hall, if_neg hall'] at hlength ⊢
    have hzeros : ∀ w : List Char,
        w.takeWhile (· == '0') = List.replicate (w.takeWhile (· == '0')).length '0' := fun w =>
      List.eq_replicate_of_mem fun c hc => by simpa using List.mem_takeWhile_imp hc
    rw [← List.takeWhile_append_dropWhile (p := (· == '0')) (l := w₁), hzeros w₁, hlength, h,
      ← hzeros w₂, List.takeWhile_append_dropWhile]

/-- Spellings of one number, up to its sign, are trimmed alike if they have as many zeros in
front. -/
theorem IsUnsigned.trimUnsigned_eq_iff {cs ds : List Char} (hcs : IsUnsigned cs)
    (hds : IsUnsigned ds) (h : unsignedValue cs = unsignedValue ds) :
    trimUnsigned cs = trimUnsigned ds ↔
      ((shownWhole (wholePart cs)).takeWhile (· == '0')).length =
        ((shownWhole (wholePart ds)).takeWhile (· == '0')).length := by
  obtain ⟨hwhole, hfraction⟩ := hcs.parts_eq hds h
  rw [hcs.hasParts.trim, hds.hasParts.trim, joinParts, joinParts, hfraction, List.append_left_inj,
    shownWhole_eq_iff hwhole]

/-- Spellings of one number that is not zero have the same sign. -/
theorem splitSign_eq_of_numberValue_eq {cs ds : List Char} (h : numberValue cs = numberValue ds)
    (hne : unsignedValue (splitSign ds).2 ≠ 0) : (splitSign cs).1 = (splitSign ds).1 := by
  have habs := unsignedValue_eq_of_numberValue_eq h
  rw [numberValue, numberValue, habs] at h
  cases hc : (splitSign cs).1 with
  | false =>
    cases hd : (splitSign ds).1 with
    | false => rfl
    | true =>
      rw [hc, hd, if_neg (by simp), if_pos rfl] at h
      exact absurd (self_eq_neg.1 h) hne
  | true =>
    cases hd : (splitSign ds).1 with
    | true => rfl
    | false =>
      rw [hc, hd, if_pos rfl, if_neg (by simp)] at h
      exact absurd (neg_eq_self.1 h) hne

/-- Two spellings of a number other than zero are trimmed alike exactly if they have as many zeros
in front. -/
theorem IsNumber.trimNumber_eq_iff {cs ds : List Char} (hcs : IsNumber cs) (hds : IsNumber ds)
    (h : numberValue cs = numberValue ds)
    (hne : unsignedDecimal (splitSign ds).2 ≠ ⟨false, 0, 0⟩) :
    trimNumber cs = trimNumber ds ↔ paddingZeros cs = paddingZeros ds := by
  have habs := unsignedValue_eq_of_numberValue_eq h
  have hdecimal := hcs.isUnsigned.decimal_eq hds.isUnsigned habs
  have hcsnil : trimUnsigned (splitSign cs).2 ≠ [] := fun hnil =>
    hne (hdecimal ▸ hcs.isUnsigned.decimal_of_trim_eq_nil hnil)
  have hdsnil : trimUnsigned (splitSign ds).2 ≠ [] := fun hnil =>
    hne (hds.isUnsigned.decimal_of_trim_eq_nil hnil)
  have hvalue : unsignedValue (splitSign ds).2 ≠ 0 := by
    intro hzero
    have hdigit : unsignedValue (splitSign ['0']).2 = 0 := by
      simp [splitSign, unsignedValue, partsValue, wholePart, ofDigits, pushDigit]
    have hsame := hds.isUnsigned.decimal_eq isNumber_zero.isUnsigned (hzero.trans hdigit.symm)
    exact hne (hsame.trans rfl)
  have hsign := splitSign_eq_of_numberValue_eq h hvalue
  rw [paddingZeros, paddingZeros, ← hcs.isUnsigned.trimUnsigned_eq_iff hds.isUnsigned habs,
    trimNumber_eq, trimNumber_eq, if_neg hcsnil, if_neg hdsnil, hsign]
  split
  · exact List.cons_inj_right _
  · exact Iff.rfl

/-! ### Lengths -/

theorem isUnit_of_mem_lengthUnits {unit : String}
    (h : lengthUnits.contains (Text.asciiLower unit) = true) : IsUnit unit.toList := by
  have hletters : lengthUnits.all (fun t => t.toList.all Char.isAlpha) = true := by decide
  have hunit := List.all_eq_true.1 hletters _ (List.contains_iff_mem.1 h)
  rw [Text.toList_asciiLower, List.all_map] at hunit
  refine .inr fun c hc => ?_
  rw [← Text.isAlpha_toLower]
  exact List.all_eq_true.1 hunit c hc

theorem isLong_of_mem_lengthUnits {d : Dimension}
    (h : lengthUnits.contains (Text.asciiLower d.unit) = true) : d.isLong = false := by
  have hunit : Text.sameIgnoringCase d.unit "ms" = false := by
    rw [Text.sameIgnoringCase, beq_eq_false_iff_ne]
    intro hms
    rw [hms] at h
    exact absurd h (by decide)
  rw [Dimension.isLong, hunit, Bool.false_and]

/-- The canonical form of a length. -/
theorem normalDimension_length {d : Dimension}
    (h : lengthUnits.contains (Text.asciiLower d.unit) = true) :
    normalDimension false d = if d.isZero then ⟨"0", ""⟩ else trimZeros d := by
  rw [normalDimension_of_not_isLong false (isLong_of_mem_lengthUnits h), if_neg (by simp),
    stripZero, zeroUnit, if_pos h]
  split
  · exact trimZeros_zero ""
  · rfl

/-- A length that is not put in other units is rid of zeros, and a zero is rid of its unit. -/
theorem canonicalNumber_length {options : Options} {property : String} {d : Dimension}
    (hrem : options.lengthToRem = false ∨ property ≠ Property.fontSize ∨
      Text.sameIgnoringCase d.unit "px" = false)
    (h : lengthUnits.contains (Text.asciiLower d.unit) = true) :
    canonicalNumber options property false d =
      if d.isZero then ⟨"0", ""⟩ else trimZeros d := by
  rw [← normalDimension_length h, canonicalNumber]
  split
  · next hrewrites =>
    obtain ⟨hoption, hproperty⟩ : options.lengthToRem = true ∧ property = Property.fontSize := by
      simpa using hrewrites
    have hpx : Text.sameIgnoringCase d.unit "px" = false := by
      rcases hrem with hrem | hrem | hrem
      · rw [hoption] at hrem
        cases hrem
      · exact absurd hproperty hrem
      · exact hrem
    have hunit : Text.sameIgnoringCase (normalDimension false d).unit "px" = false := by
      rw [normalDimension_length h]
      split
      · decide
      · exact hpx
    rw [toRem, hunit, if_neg (by simp)]
  · rfl

theorem render_number (d : Dimension) : render [.number d] = d.number ++ d.unit := by
  rw [← String.toList_inj, toList_render, String.toList_append]
  exact List.append_nil _

/-- A value that is one number. -/
theorem normalValue_number {options : Options} {property : String} {d : Dimension}
    (hproperty : Property.textual.contains property = false) (hd : d.IsWritten) :
    normalValue options property (d.number ++ d.unit) =
      .ok ((canonicalNumber options property false d).number ++
        (canonicalNumber options property false d).unit) := by
  have hfits : AllFit none [.number d] := ⟨fits_number_of_ends hd ends_none, trivial⟩
  have hparse := parseValue_render_iff.2 hfits
  rw [render_number] at hparse
  calc normalValue options property (d.number ++ d.unit)
      = .ok (render [rewriteNode (canonicalNumber options property)
          (Property.listing.contains property) false (.number d)]) := by
        rw [normalValue_of_parseValue hproperty hparse, normalNodes_eq_map]
        rfl
    _ = _ := by rw [rewriteNode_number, render_number]

/-- What becomes of a length. -/
theorem normalValue_length {options : Options} {property number unit : String}
    (hproperty : Property.textual.contains property = false)
    (hrem : options.lengthToRem = false ∨ property ≠ Property.fontSize ∨
      Text.sameIgnoringCase unit "px" = false)
    (hunit : lengthUnits.contains (Text.asciiLower unit) = true)
    (hnumber : IsNumber number.toList) :
    normalValue options property (number ++ unit) =
      .ok (if (⟨number, unit⟩ : Dimension).isZero then "0"
        else String.ofList (trimNumber number.toList) ++ unit) := by
  have hd : (⟨number, unit⟩ : Dimension).IsWritten := ⟨hnumber, isUnit_of_mem_lengthUnits hunit⟩
  have hvalue := @normalValue_number options property _ hproperty hd
  have hcanonical := @canonicalNumber_length options property ⟨number, unit⟩ hrem hunit
  rw [hcanonical] at hvalue
  rw [hvalue]
  split <;> rfl

/-- Two spellings of a length have one canonical form if and only if the length is zero or they have
as many zeros in front. -/
theorem normalValue_spelling {options : Options} {property a b u : String}
    (hproperty : Property.textual.contains property = false)
    (hrem : options.lengthToRem = false ∨ property ≠ Property.fontSize ∨
      Text.sameIgnoringCase u "px" = false)
    (hu : lengthUnits.contains (Text.asciiLower u) = true)
    (ha : readNumber a.toList = some (a.toList, []))
    (hb : readNumber b.toList = some (b.toList, []))
    (hvalue : numberValue a.toList = numberValue b.toList) :
    ∃ v w, normalValue options property (a ++ u) = .ok v ∧
      normalValue options property (b ++ u) = .ok w ∧
      (v = w ↔ (⟨a, u⟩ : Dimension).isZero = true ∨
        paddingZeros a.toList = paddingZeros b.toList) := by
  have hna := (readNumber_eq_some ha).1
  have hnb := (readNumber_eq_some hb).1
  have habs := unsignedValue_eq_of_numberValue_eq hvalue
  have hzeros : (⟨a, u⟩ : Dimension).isZero = (⟨b, u⟩ : Dimension).isZero :=
    Dimension.isZero_eq hna hnb (hna.isUnsigned.decimal_eq hnb.isUnsigned habs)
  refine ⟨_, _, normalValue_length hproperty hrem hu hna, normalValue_length hproperty hrem hu hnb,
    ?_⟩
  rw [← hzeros]
  cases hzero : (⟨a, u⟩ : Dimension).isZero with
  | true => simp
  | false =>
    -- A number whose decimal is zero would be zero itself.
    have hne : unsignedDecimal (splitSign b.toList).2 ≠ ⟨false, 0, 0⟩ := by
      intro hdecimal
      have hb : (⟨b, u⟩ : Dimension).isZero = true := Dimension.isZero_of_decimal hnb hdecimal
      rw [hzeros, hb] at hzero
      cases hzero
    rw [← hna.trimNumber_eq_iff hnb hvalue hne, if_neg (by simp), if_neg (by simp)]
    simp [← String.toList_inj]

/-- A zero in front of a whole part that is not zero is kept, so one length has two classes. -/
theorem normalValue_spelling_padded :
    numberValue "01".toList = numberValue "+1.0".toList ∧
      ∃ v w, normalValue {} "width" "01px" = .ok v ∧ normalValue {} "width" "+1.0px" = .ok w ∧
        v ≠ w := by
  have hvalue : numberValue "01".toList = numberValue "+1.0".toList := by
    simp [numberValue, splitSign, unsignedValue, partsValue, wholePart, ofDigits, pushDigit]
  obtain ⟨v, w, hv, hw, hiff⟩ := @normalValue_spelling {} "width" "01" "+1.0" "px" (by decide)
    (.inl rfl) (by decide) (by decide) (by decide) hvalue
  refine ⟨hvalue, v, w, hv, hw, fun heq => ?_⟩
  exact absurd (hiff.1 heq) (by decide)

end AtomicCss
