import Mathlib.Data.List.DropRight
import AtomicCss.Proofs.Value.Number
import AtomicCss.Value.Normal

/-!
# Numbers without the zeros that do not count

A number is written without the zeros at the end of its fraction, without a point that nothing
follows, and without a whole part that is zero if there is a fraction. All this changes neither the
decimal that its digits denote nor, if it is done again, anything else.

* `joinParts`: how a whole part and a fraction are written without the zeros that do not count.
* `IsUnsigned.hasParts`: the parts of a number, and what trimming and reading make of them.
* `IsNumber.isNumber_trimNumber`, `IsNumber.trimNumber_trimNumber`,
  `IsNumber.unsignedDecimal_trimNumber`: a trimmed number is a number, stays as it is, and denotes
  the same decimal.
-/

namespace AtomicCss

open Text (Stops)

/-! ### Zeros at the end -/

/-- Dropping from the end stops at the last character that stays. -/
theorem dropEndWhile_append_cons {p : Char → Bool} {c : Char} (hc : p c = false)
    (cs ds : List Char) : dropEndWhile p (cs ++ c :: ds) = cs ++ c :: dropEndWhile p ds := by
  have hstops : Stops p (c :: cs.reverse) := Text.stops_cons.2 hc
  have hreverse : (cs ++ c :: ds).reverse = ds.reverse ++ c :: cs.reverse := by simp
  rw [dropEndWhile, hreverse, Text.dropWhile_append_of_stops _ hstops]
  simp [dropEndWhile]

theorem dropEndWhile_concat {p : Char → Bool} {c : Char} (hc : p c = true) (cs : List Char) :
    dropEndWhile p (cs ++ [c]) = dropEndWhile p cs :=
  List.rdropWhile_concat_pos p cs c hc

theorem dropEndWhile_of_forall {p : Char → Bool} {cs : List Char}
    (h : ∀ c ∈ cs, p c = false) : dropEndWhile p cs = cs := by
  rw [dropEndWhile, ← List.rdropWhile, List.rdropWhile_eq_self_iff]
  intro hne
  simp [h _ (List.getLast_mem hne)]

theorem dropEndWhile_dropEndWhile (p : Char → Bool) (cs : List Char) :
    dropEndWhile p (dropEndWhile p cs) = dropEndWhile p cs :=
  List.rdropWhile_idempotent p cs

/-- If nothing is dropped at the end, the last character is none that would be. -/
theorem getLast?_ne_of_dropEndWhile {p : Char → Bool} {cs : List Char}
    (h : dropEndWhile p cs = cs) {c : Char} (hc : p c = true) : cs.getLast? ≠ some c := by
  intro hlast
  have hne : cs ≠ [] := by
    rintro rfl
    cases hlast
  have hnot : ¬ p (cs.getLast hne) = true := List.rdropWhile_eq_self_iff.1 h hne
  rw [List.getLast?_eq_some_getLast hne] at hlast
  exact hnot (Option.some.inj hlast ▸ hc)

theorem mem_of_mem_dropEndWhile {p : Char → Bool} {cs : List Char} {c : Char}
    (h : c ∈ dropEndWhile p cs) : c ∈ cs :=
  (List.rdropWhile_prefix p cs).subset h

theorem AllDigits.dropEndWhile {cs : List Char} (h : AllDigits cs) (p : Char → Bool) :
    AllDigits (dropEndWhile p cs) :=
  fun c hc => h c (mem_of_mem_dropEndWhile hc)

theorem AllDigits.point_notMem {cs : List Char} (h : AllDigits cs) : '.' ∉ cs :=
  fun hmem => absurd (h _ hmem) (by decide)

theorem AllDigits.bne_point {cs : List Char} (h : AllDigits cs) : ∀ c ∈ cs, (c != '.') = true := by
  intro c hc
  refine bne_iff_ne.2 ?_
  rintro rfl
  exact h.point_notMem hc

theorem AllDigits.ne_point {cs : List Char} (h : AllDigits cs) : ∀ c ∈ cs, (c == '.') = false :=
  fun c hc => by simpa using h.bne_point c hc

/-! ### Whole part and fraction -/

/-- The digits before the point. -/
def wholePart (cs : List Char) : List Char :=
  cs.takeWhile (· != '.')

/-- The digits behind the point, without the zeros at their end. -/
def fractionPart (cs : List Char) : List Char :=
  dropEndWhile (· == '0') ((cs.dropWhile (· != '.')).drop 1)

/-- The digits before the point, unless they are all zero. -/
def shownWhole (whole : List Char) : List Char :=
  if whole.all (· == '0') then [] else whole

/-- The point and the digits behind it, unless there are none. -/
def shownFraction (fraction : List Char) : List Char :=
  if fraction = [] then [] else '.' :: fraction

/-- The number with the given digits before and after the point, without a whole part that is zero
and without a point that nothing follows. -/
def joinParts (whole fraction : List Char) : List Char :=
  shownWhole whole ++ shownFraction fraction

/-- The decimal with the given digits before and after the point. -/
def decimalOfParts (whole fraction : List Char) : Decimal :=
  ⟨false, Decimal.ofDigits (whole.dropWhile (· == '0') ++ fraction), -(fraction.length : Int)⟩

section Parts

variable {whole fraction : List Char}

/-- The last step of trimming, which looks at the zeros in front. -/
theorem trimUnsigned_eq {cs : List Char} (hwhole : AllDigits whole)
    (h : (if cs.contains '.' then dropEndWhile (· == '.') (dropEndWhile (· == '0') cs) else cs) =
      whole ++ shownFraction fraction) :
    trimUnsigned cs = joinParts whole fraction := by
  have hstops : Stops (· == '0') (shownFraction fraction) := by
    unfold shownFraction
    split
    · exact Text.stops_nil _
    · exact Text.stops_cons.2 (by decide)
  simp only [trimUnsigned, h, Text.dropWhile_append_of_stops _ hstops, joinParts, shownWhole]
  cases hdrop : whole.dropWhile (· == '0') with
  | nil =>
    have hall : whole.all (· == '0') = true :=
      List.all_eq_true.2 (List.dropWhile_eq_nil_iff.1 hdrop)
    rw [if_pos hall]
    by_cases hfraction : fraction = [] <;> simp [shownFraction, hfraction]
  | cons c cs =>
    have hall : ¬ whole.all (· == '0') = true := by
      intro hall
      simp [List.dropWhile_eq_nil_iff.2 (List.all_eq_true.1 hall)] at hdrop
    have hc : c ≠ '.' := by
      rintro rfl
      exact hwhole.point_notMem ((List.dropWhile_sublist (· == '0')).subset (by simp [hdrop]))
    rw [if_neg hall]
    simp [hc]

/-- Trimming digits without a point drops them if they are all zero. -/
theorem trimUnsigned_whole (hwhole : AllDigits whole) :
    trimUnsigned whole = joinParts whole [] := by
  refine trimUnsigned_eq hwhole ?_
  rw [if_neg (by simpa using hwhole.point_notMem)]
  exact (List.append_nil whole).symm

/-- Trimming digits around a point also drops the zeros at their end. -/
theorem trimUnsigned_point (hwhole : AllDigits whole) (hfraction : AllDigits fraction) :
    trimUnsigned (whole ++ '.' :: fraction) =
      joinParts whole (dropEndWhile (· == '0') fraction) := by
  refine trimUnsigned_eq hwhole ?_
  rw [if_pos (by simp), dropEndWhile_append_cons (by decide)]
  cases hrest : dropEndWhile (· == '0') fraction with
  | nil =>
    -- The point is the last character and goes.
    rw [dropEndWhile_concat rfl, dropEndWhile_of_forall hwhole.ne_point]
    exact (List.append_nil whole).symm
  | cons c ds =>
    have hdigits : AllDigits (c :: ds) := hrest ▸ hfraction.dropEndWhile _
    have hc : (c == '.') = false := hdigits.ne_point c (by simp)
    have hds : ∀ d ∈ ds, (d == '.') = false := fun d hd => hdigits.ne_point d (by simp [hd])
    have hlast := dropEndWhile_append_cons (p := (· == '.')) hc (whole ++ ['.']) ds
    rw [dropEndWhile_of_forall hds] at hlast
    simpa [shownFraction] using hlast

/-- The decimal of a number is that of its two parts. -/
theorem unsignedDecimal_eq (cs : List Char) :
    unsignedDecimal cs = decimalOfParts (wholePart cs) (fractionPart cs) :=
  rfl

theorem wholePart_of_digits (h : AllDigits whole) : wholePart whole = whole :=
  List.takeWhile_eq_self_iff.2 h.bne_point

theorem fractionPart_of_digits (h : AllDigits whole) : fractionPart whole = [] := by
  rw [fractionPart, List.dropWhile_eq_nil_iff.2 h.bne_point]
  rfl

theorem wholePart_point (h : AllDigits whole) (fraction : List Char) :
    wholePart (whole ++ '.' :: fraction) = whole := by
  have hstops : Stops (· != '.') ('.' :: fraction) := Text.stops_cons.2 (by decide)
  rw [wholePart, List.takeWhile_append_of_pos h.bne_point, hstops.takeWhile, List.append_nil]

theorem fractionPart_point (h : AllDigits whole) (fraction : List Char) :
    fractionPart (whole ++ '.' :: fraction) = dropEndWhile (· == '0') fraction := by
  have hstops : Stops (· != '.') ('.' :: fraction) := Text.stops_cons.2 (by decide)
  rw [fractionPart, List.dropWhile_append_of_pos h.bne_point, hstops.dropWhile]
  rfl

end Parts

/-- The digits before and after the point that count, and what trimming and reading make of them. -/
structure HasParts (cs whole fraction : List Char) : Prop where
  digits : AllDigits whole
  fraction_digits : AllDigits fraction
  fraction_trimmed : dropEndWhile (· == '0') fraction = fraction
  trim : trimUnsigned cs = joinParts whole fraction
  decimal : unsignedDecimal cs = decimalOfParts whole fraction

/-- Every unsigned number has two parts, which say all about it. -/
theorem IsUnsigned.hasParts {cs : List Char} (h : IsUnsigned cs) :
    HasParts cs (wholePart cs) (fractionPart cs) := by
  have hdecimal := unsignedDecimal_eq cs
  cases h with
  | whole hdigits =>
    rw [wholePart_of_digits hdigits, fractionPart_of_digits hdigits] at hdecimal ⊢
    exact ⟨hdigits, by simp [AllDigits], rfl, trimUnsigned_whole hdigits, hdecimal⟩
  | @point whole fraction hdigits hfraction =>
    rw [wholePart_point hdigits, fractionPart_point hdigits] at hdecimal ⊢
    exact ⟨hdigits, hfraction.dropEndWhile _, dropEndWhile_dropEndWhile _ _,
      trimUnsigned_point hdigits hfraction, hdecimal⟩

section Written

variable {whole fraction : List Char}

/-- A number that is written with the digits that count has them as its parts. -/
theorem hasParts_append (hwhole : AllDigits whole) (hfraction : AllDigits fraction)
    (htrimmed : dropEndWhile (· == '0') fraction = fraction) :
    HasParts (whole ++ shownFraction fraction) whole fraction := by
  by_cases hnil : fraction = []
  · subst hnil
    rw [shownFraction, if_pos rfl, List.append_nil]
    have hdecimal := unsignedDecimal_eq whole
    rw [wholePart_of_digits hwhole, fractionPart_of_digits hwhole] at hdecimal
    exact ⟨hwhole, hfraction, rfl, trimUnsigned_whole hwhole, hdecimal⟩
  · have htrim := trimUnsigned_point hwhole hfraction
    have hdecimal := unsignedDecimal_eq (whole ++ '.' :: fraction)
    rw [wholePart_point hwhole, fractionPart_point hwhole] at hdecimal
    rw [htrimmed] at htrim hdecimal
    rw [shownFraction, if_neg hnil]
    exact ⟨hwhole, hfraction, htrimmed, htrim, hdecimal⟩

/-- The parts make an unsigned number unless both are empty. -/
theorem isUnsigned_append (hwhole : AllDigits whole) (hfraction : AllDigits fraction)
    (hne : whole ++ shownFraction fraction ≠ []) :
    IsUnsigned (whole ++ shownFraction fraction) := by
  unfold shownFraction at hne ⊢
  split
  · next hnil =>
    rw [if_pos hnil] at hne
    rw [List.append_nil] at hne ⊢
    exact .whole hwhole hne
  · next hnil => exact .point hwhole hfraction (.inr hnil)

/-- The digits before the point are dropped if they are all zero, and otherwise kept. -/
theorem shownWhole_cases (whole : List Char) :
    shownWhole whole = [] ∧ (∀ c ∈ whole, (c == '0') = true) ∨ shownWhole whole = whole := by
  unfold shownWhole
  split
  · next hall => exact .inl ⟨rfl, List.all_eq_true.1 hall⟩
  · exact .inr rfl

theorem AllDigits.shownWhole (h : AllDigits whole) : AllDigits (shownWhole whole) := by
  rcases shownWhole_cases whole with ⟨hnil, -⟩ | heq
  · simp [hnil, AllDigits]
  · rwa [heq]

theorem joinParts_shownWhole :
    joinParts (shownWhole whole) fraction = joinParts whole fraction := by
  rcases shownWhole_cases whole with ⟨hnil, -⟩ | heq
  · rw [joinParts, joinParts, hnil]
    rfl
  · rw [heq]

/-- A whole part of zeros does not count. -/
theorem decimalOfParts_shownWhole :
    decimalOfParts (shownWhole whole) fraction = decimalOfParts whole fraction := by
  rcases shownWhole_cases whole with ⟨hnil, hzeros⟩ | heq
  · rw [decimalOfParts, decimalOfParts, hnil, List.dropWhile_eq_nil_iff.2 hzeros]
    rfl
  · rw [heq]

end Written

/-- A trimmed number is a number, is trimmed and denotes the same decimal. -/
theorem IsUnsigned.trim {cs : List Char} (h : IsUnsigned cs) (hne : trimUnsigned cs ≠ []) :
    IsUnsigned (trimUnsigned cs) ∧ trimUnsigned (trimUnsigned cs) = trimUnsigned cs ∧
      unsignedDecimal (trimUnsigned cs) = unsignedDecimal cs := by
  obtain ⟨hwhole, hfraction, htrimmed, htrim, hdecimal⟩ := h.hasParts
  have hparts := hasParts_append hwhole.shownWhole hfraction htrimmed
  rw [htrim] at hne
  rw [htrim, hdecimal]
  refine ⟨isUnsigned_append hwhole.shownWhole hfraction hne, ?_, ?_⟩
  · exact hparts.trim.trans joinParts_shownWhole
  · exact hparts.decimal.trans decimalOfParts_shownWhole

/-- A number of which nothing is left denotes zero. -/
theorem IsUnsigned.decimal_of_trim_eq_nil {cs : List Char} (h : IsUnsigned cs)
    (hnil : trimUnsigned cs = []) : unsignedDecimal cs = ⟨false, 0, 0⟩ := by
  obtain ⟨hwhole, hfraction, htrimmed, htrim, hdecimal⟩ := h.hasParts
  rw [htrim, joinParts, List.append_eq_nil_iff] at hnil
  have hfraction : fractionPart cs = [] := by
    by_contra hne
    simp [shownFraction, hne] at hnil
  rw [hdecimal, ← decimalOfParts_shownWhole, hnil.1, hfraction]
  rfl

/-! ### Signs -/

theorem IsUnsigned.splitSign_eq {cs : List Char} (h : IsUnsigned cs) :
    splitSign cs = (false, cs) := by
  have hnot : ∀ sign, sign = '+' ∨ sign = '-' → ∀ rest, cs ≠ sign :: rest := by
    rintro sign hsign rest rfl
    exact h.not_sign (by simpa using hsign)
  unfold splitSign
  split
  · next rest => exact absurd rfl (hnot '-' (.inr rfl) rest)
  · next rest => exact absurd rfl (hnot '+' (.inl rfl) rest)
  · rfl

/-- A number is an unsigned one with a sign in front or not. -/
theorem IsNumber.isUnsigned {cs : List Char} (h : IsNumber cs) : IsUnsigned (splitSign cs).2 := by
  cases h with
  | unsigned h => rwa [h.splitSign_eq]
  | signed hsign h =>
    rcases hsign with rfl | rfl
    · exact h
    · exact h

/-- A number is trimmed behind its sign, which stays if it is a minus and digits are left. -/
theorem trimNumber_eq (cs : List Char) :
    trimNumber cs = if trimUnsigned (splitSign cs).2 = [] then ['0'] else
      if (splitSign cs).1 then '-' :: trimUnsigned (splitSign cs).2
      else trimUnsigned (splitSign cs).2 := by
  unfold trimNumber
  cases h : trimUnsigned (splitSign cs).2 <;> simp [h]

/-- The two results of trimming: zero, or the trimmed number with its minus sign. -/
theorem IsNumber.trimNumber_cases {cs : List Char} (h : IsNumber cs) :
    (trimNumber cs = ['0'] ∧ unsignedDecimal (splitSign cs).2 = ⟨false, 0, 0⟩) ∨
    ∃ digits, IsUnsigned digits ∧ trimUnsigned digits = digits ∧
      unsignedDecimal digits = unsignedDecimal (splitSign cs).2 ∧
      trimNumber cs = if (splitSign cs).1 then '-' :: digits else digits := by
  rw [trimNumber_eq]
  by_cases hnil : trimUnsigned (splitSign cs).2 = []
  · exact .inl ⟨if_pos hnil, h.isUnsigned.decimal_of_trim_eq_nil hnil⟩
  · obtain ⟨hunsigned, htrimmed, hdecimal⟩ := h.isUnsigned.trim hnil
    exact .inr ⟨_, hunsigned, htrimmed, hdecimal, if_neg hnil⟩

/-- A minus sign in front of a number is split off again. -/
theorem IsUnsigned.splitSign_signed {digits : List Char} (h : IsUnsigned digits)
    (negative : Bool) :
    splitSign (if negative then '-' :: digits else digits) = (negative, digits) := by
  cases negative with
  | true => rfl
  | false => exact h.splitSign_eq

theorem IsUnsigned.isNumber_signed {digits : List Char} (h : IsUnsigned digits)
    (negative : Bool) : IsNumber (if negative then '-' :: digits else digits) := by
  cases negative with
  | true => exact .signed (.inr rfl) h
  | false => exact .unsigned h

theorem isNumber_zero : IsNumber ['0'] :=
  .unsigned (.whole (by simp [AllDigits]) (by simp))

theorem IsNumber.isNumber_trimNumber {cs : List Char} (h : IsNumber cs) :
    IsNumber (trimNumber cs) := by
  rcases h.trimNumber_cases with ⟨hzero, -⟩ | ⟨digits, hdigits, -, -, htrim⟩
  · rw [hzero]
    exact isNumber_zero
  · rw [htrim]
    exact hdigits.isNumber_signed _

/-- Trimming drops a plus sign. -/
theorem IsNumber.plus_notMem_trimNumber {cs : List Char} (h : IsNumber cs) :
    '+' ∉ trimNumber cs := by
  rcases h.trimNumber_cases with ⟨hzero, -⟩ | ⟨digits, hdigits, -, -, htrim⟩
  · rw [hzero]
    decide
  · have hnot : '+' ∉ digits := fun hmem => absurd (hdigits.mem hmem) (by decide)
    rw [htrim]
    split
    · simpa using hnot
    · exact hnot

/-- Trimming a number again changes nothing. -/
theorem IsNumber.trimNumber_trimNumber {cs : List Char} (h : IsNumber cs) :
    trimNumber (trimNumber cs) = trimNumber cs := by
  rcases h.trimNumber_cases with ⟨hzero, -⟩ | ⟨digits, hdigits, htrimmed, -, htrim⟩
  · rw [hzero]
    rfl
  · rw [htrim, trimNumber_eq, hdigits.splitSign_signed, htrimmed, if_neg hdigits.ne_nil]

/-- A trimmed number denotes the same decimal up to its sign. -/
theorem IsNumber.unsignedDecimal_trimNumber {cs : List Char} (h : IsNumber cs) :
    unsignedDecimal (splitSign (trimNumber cs)).2 = unsignedDecimal (splitSign cs).2 := by
  rcases h.trimNumber_cases with ⟨hzero, hdecimal⟩ | ⟨digits, hdigits, -, hdecimal, htrim⟩
  · rw [hzero, hdecimal]
    rfl
  · rw [htrim, hdigits.splitSign_signed, hdecimal]

end AtomicCss
