import Mathlib
import AtomicCss.Proofs.Text
import AtomicCss.Value.Reader

/-!
# The texts of numbers

What the reader takes as a number is said here by its shape: an optional sign, and digits with at
most one point among them. A number ends where neither a digit nor a point follows, so it is read in
the same way whatever comes after it.

* `IsUnsigned`, `IsNumber`: the shape of a number without and with its sign.
* `readNumber_eq_some`: what is read has this shape, and `IsNumber.readNumber`: every such text is
  read as a whole.
* `readDimension_append`: a number with its unit is read in the same way in front of a text that
  does not run on.
-/

namespace AtomicCss

open Text (Stops)

/-! ### Classes of characters -/

namespace Text

/-- The code points of the letters and digits of ASCII. -/
theorem toNat_of_isAlphanum {c : Char} (h : c.isAlphanum = true) :
    48 ≤ c.toNat ∧ c.toNat < 0x80 := by
  have hc : c.toNat = c.val.toNat := rfl
  simp only [Char.isAlphanum, Char.isAlpha, Char.isUpper, Char.isLower, Char.isDigit, ge_iff_le,
    UInt32.le_iff_toNat_le, Bool.or_eq_true, Bool.and_eq_true, decide_eq_true_eq] at h
  simp at h
  omega

theorem isDigit_of_isAlpha {c : Char} (h : c.isAlpha = true) : c.isDigit = false := by
  simp only [Char.isAlpha, Char.isUpper, Char.isLower, ge_iff_le, UInt32.le_iff_toNat_le,
    Bool.or_eq_true, Bool.and_eq_true, decide_eq_true_eq] at h
  simp only [Char.isDigit, ge_iff_le, UInt32.le_iff_toNat_le, Bool.and_eq_false_iff,
    decide_eq_false_iff_not]
  simp at h ⊢
  omega

/-- No range of the first table meets one of the second. -/
def apart (xs ys : List CodeRange) : Bool :=
  xs.all fun x => ys.all fun y => x.last < y.first || y.last < x.first

/-- A character in one of two tables that are apart is not in the other. -/
theorem inRanges_of_apart {xs ys : List CodeRange} {c : Char} (h : apart xs ys = true)
    (hc : inRanges xs c = true) : inRanges ys c = false := by
  rw [inRanges, List.any_eq_false]
  intro y hy hyc
  obtain ⟨x, hx, hxc⟩ := List.any_eq_true.1 hc
  have hxy := List.all_eq_true.1 (List.all_eq_true.1 h x hx) y hy
  simp only [CodeRange.holds, Bool.and_eq_true, Bool.or_eq_true, decide_eq_true_eq] at hxc hyc hxy
  omega

/-- A letter or a number is not white space. -/
theorem isBlank_of_isAlphanumeric {c : Char} (h : isAlphanumeric c = true) :
    isBlank c = false := by
  unfold isAlphanumeric at h
  split at h
  · have hc := toNat_of_isAlphanum h
    simp [isBlank, inRanges, blankRanges, CodeRange.holds]
    omega
  · exact inRanges_of_apart (by decide +kernel) h

end Text

theorem isNameChar_of_isAlphanum {c : Char} (h : c.isAlphanum = true) : isNameChar c = true := by
  simp [isNameChar, Text.isAlphanumeric, (Text.toNat_of_isAlphanum h).2, h]

theorem isWordChar_of_isNameChar {c : Char} (h : isNameChar c = true) : isWordChar c = true := by
  rw [isNameChar, Bool.or_eq_true, Bool.or_eq_true] at h
  rcases h with (h | h) | h
  · have hne : ∀ d : Char, Text.isAlphanumeric d = false → c ≠ d := by
      rintro d hd rfl
      simp [h] at hd
    simp [isWordChar, isDividerMark, isQuote, Text.isBlank_of_isAlphanumeric h,
      hne ',' (by decide), hne '/' (by decide), hne '(' (by decide), hne ')' (by decide),
      hne '\'' (by decide), hne '"' (by decide)]
  · rw [beq_iff_eq.1 h]
    decide
  · rw [beq_iff_eq.1 h]
    decide

/-! ### Shapes -/

/-- Nothing but digits. -/
def AllDigits (cs : List Char) : Prop :=
  ∀ c ∈ cs, c.isDigit = true

/-- Digits with at most one point among them, and a digit before or after it. -/
inductive IsUnsigned : List Char → Prop where
  | whole {whole : List Char} (digits : AllDigits whole) (ne_nil : whole ≠ []) : IsUnsigned whole
  | point {whole fraction : List Char} (digits : AllDigits whole)
      (fraction_digits : AllDigits fraction) (ne_nil : whole ≠ [] ∨ fraction ≠ []) :
      IsUnsigned (whole ++ '.' :: fraction)

/-- A number with an optional sign. -/
inductive IsNumber : List Char → Prop where
  | unsigned {cs : List Char} (h : IsUnsigned cs) : IsNumber cs
  | signed {sign : Char} {cs : List Char} (h_sign : sign = '+' ∨ sign = '-')
      (h : IsUnsigned cs) : IsNumber (sign :: cs)

theorem IsUnsigned.ne_nil {cs : List Char} (h : IsUnsigned cs) : cs ≠ [] := by
  cases h with
  | whole _ hne => exact hne
  | point => simp

theorem IsNumber.ne_nil {cs : List Char} (h : IsNumber cs) : cs ≠ [] := by
  cases h with
  | unsigned h => exact h.ne_nil
  | signed => simp

theorem IsUnsigned.mem {cs : List Char} (h : IsUnsigned cs) {c : Char} (hc : c ∈ cs) :
    c.isDigit = true ∨ c = '.' := by
  cases h with
  | whole hds => exact .inl (hds c hc)
  | point hws hfs =>
    rcases List.mem_append.1 hc with hc | hc
    · exact .inl (hws c hc)
    · rcases List.mem_cons.1 hc with rfl | hc
      · exact .inr rfl
      · exact .inl (hfs c hc)

theorem IsNumber.mem {cs : List Char} (h : IsNumber cs) {c : Char} (hc : c ∈ cs) :
    c.isDigit = true ∨ c = '.' ∨ c = '+' ∨ c = '-' := by
  cases h with
  | unsigned h => rcases h.mem hc with h | h <;> simp [h]
  | signed hsign h =>
    rcases List.mem_cons.1 hc with rfl | hc
    · exact .inr (.inr hsign)
    · rcases h.mem hc with h | h <;> simp [h]

theorem IsUnsigned.exists_digit {cs : List Char} (h : IsUnsigned cs) :
    ∃ c ∈ cs, c.isDigit = true := by
  have hsome : ∀ {ds : List Char}, AllDigits ds → ds ≠ [] → ∃ c ∈ ds, c.isDigit = true := by
    intro ds hds hne
    obtain ⟨c, cs, rfl⟩ := List.exists_cons_of_ne_nil hne
    exact ⟨c, by simp, hds c (by simp)⟩
  cases h with
  | whole hdigits hne => exact hsome hdigits hne
  | point hwhole hfraction hne =>
    rcases hne with hne | hne
    · obtain ⟨c, hc, hdigit⟩ := hsome hwhole hne
      exact ⟨c, by simp [hc], hdigit⟩
    · obtain ⟨c, hc, hdigit⟩ := hsome hfraction hne
      exact ⟨c, by simp [hc], hdigit⟩

theorem IsNumber.exists_digit {cs : List Char} (h : IsNumber cs) : ∃ c ∈ cs, c.isDigit = true := by
  cases h with
  | unsigned h => exact h.exists_digit
  | signed _ h =>
    obtain ⟨c, hc, hdigit⟩ := h.exists_digit
    exact ⟨c, by simp [hc], hdigit⟩

theorem IsUnsigned.not_sign {c : Char} {cs : List Char} (h : IsUnsigned (c :: cs)) :
    ¬ (c = '+' || c = '-') = true := by
  have hc := h.mem (List.mem_cons_self)
  rintro hsign
  rcases (by simpa using hsign : c = '+' ∨ c = '-') with rfl | rfl <;> simp [Char.isDigit] at hc

/-! ### What follows a number -/

/-- Where no word runs on, no run of characters goes on that belong to names. -/
theorem stops_of_continuesWord {p : Char → Bool} {t : List Char} (h : continuesWord t = false)
    (hp : ∀ c, p c = true → isNameChar c = true ∨ c = '.') : Stops p t := by
  have hstops : Stops (fun c => isNameChar c || c == '.') t := by
    intro c hc
    cases t with
    | nil => cases hc
    | cons d t => simpa [continuesWord, ← Option.mem_some.1 hc] using h
  exact hstops.mono fun c hc => by simpa using hp c hc

theorem stops_isNameChar {t : List Char} (h : continuesWord t = false) : Stops isNameChar t :=
  stops_of_continuesWord h fun _ hc => .inl hc

theorem stops_isDigit {t : List Char} (h : continuesWord t = false) : Stops Char.isDigit t :=
  (stops_isNameChar h).mono fun _ hc => isNameChar_of_isAlphanum (by simp [Char.isAlphanum, hc])

theorem stops_isAlpha {t : List Char} (h : continuesWord t = false) : Stops Char.isAlpha t :=
  (stops_isNameChar h).mono fun _ hc => isNameChar_of_isAlphanum (by simp [Char.isAlphanum, hc])

theorem stops_point {t : List Char} (h : continuesWord t = false) : Stops (· == '.') t :=
  stops_of_continuesWord h fun _ hc => .inr (by simpa using hc)

/-- Text that ends words makes no difference behind other text. -/
theorem continuesWord_append {cs t : List Char} (h : continuesWord t = false) :
    continuesWord (cs ++ t) = continuesWord cs := by
  cases cs with
  | nil => exact h
  | cons c cs => rfl

/-! ### Reading numbers -/

/-- A text begins with digits, which may be none; after them there is a point and further digits, or
there is no point. -/
theorem digits_cases (cs : List Char) :
    (∃ whole fraction rest, AllDigits whole ∧ AllDigits fraction ∧ Stops Char.isDigit rest ∧
      cs = whole ++ '.' :: (fraction ++ rest)) ∨
    (∃ whole rest, AllDigits whole ∧ Stops Char.isDigit rest ∧ Stops (· == '.') rest ∧
      cs = whole ++ rest) := by
  have hdigits : ∀ ds : List Char, AllDigits (ds.takeWhile Char.isDigit) :=
    fun _ _ hd => List.mem_takeWhile_imp hd
  have hcs : cs = cs.takeWhile Char.isDigit ++ cs.dropWhile Char.isDigit :=
    List.takeWhile_append_dropWhile.symm
  rcases hrest : cs.dropWhile Char.isDigit with _ | ⟨c, rest⟩
  · exact .inr ⟨_, [], hdigits cs, Text.stops_nil _, Text.stops_nil _, by simpa [hrest] using hcs⟩
  by_cases hc : c = '.'
  · subst hc
    refine .inl ⟨_, _, _, hdigits cs, hdigits rest, Text.stops_dropWhile _ rest, ?_⟩
    rw [List.takeWhile_append_dropWhile, ← hrest]
    exact hcs
  · refine .inr ⟨_, c :: rest, hdigits cs, ?_, Text.stops_cons.2 (by simpa using hc), ?_⟩
    · rw [← hrest]
      exact Text.stops_dropWhile _ cs
    · rw [← hrest]
      exact hcs

section Digits

variable {whole fraction t : List Char}

theorem AllDigits.takeWhile (h : AllDigits whole) (ht : Stops Char.isDigit t) :
    (whole ++ t).takeWhile Char.isDigit = whole := by
  rw [List.takeWhile_append_of_pos h, ht.takeWhile, List.append_nil]

theorem AllDigits.dropWhile (h : AllDigits whole) (ht : Stops Char.isDigit t) :
    (whole ++ t).dropWhile Char.isDigit = t := by
  rw [List.dropWhile_append_of_pos h, ht.dropWhile]

/-- Digits around a point are read, if there are any. -/
theorem readUnsigned_point (hwhole : AllDigits whole) (hfraction : AllDigits fraction)
    (ht : Stops Char.isDigit t) :
    readUnsigned (whole ++ '.' :: (fraction ++ t)) =
      if whole = [] ∧ fraction = [] then none else some (whole ++ '.' :: fraction, t) := by
  have hpoint : Stops Char.isDigit ('.' :: (fraction ++ t)) := Text.stops_cons.2 (by decide)
  rw [readUnsigned, hwhole.takeWhile hpoint, hwhole.dropWhile hpoint]
  cases whole with
  | nil =>
    simp only [hfraction.takeWhile ht, hfraction.dropWhile ht]
    cases fraction <;> simp
  | cons d whole => simp [hfraction.takeWhile ht, hfraction.dropWhile ht]

/-- Digits without a point are read, if there are any. -/
theorem readUnsigned_whole (hwhole : AllDigits whole) (ht : Stops Char.isDigit t)
    (hpoint : Stops (· == '.') t) :
    readUnsigned (whole ++ t) = if whole = [] then none else some (whole, t) := by
  have hne : ∀ rest, t ≠ '.' :: rest := by
    rintro rest rfl
    simpa using Text.stops_cons.1 hpoint
  rw [readUnsigned, hwhole.takeWhile ht, hwhole.dropWhile ht]
  cases whole with
  | nil => simp
  | cons d whole => simp

end Digits

/-- What is read has the shape of a number, and nothing is left that would belong to it. -/
theorem readUnsigned_eq_some {cs number rest : List Char}
    (h : readUnsigned cs = some (number, rest)) :
    IsUnsigned number ∧ cs = number ++ rest := by
  rcases digits_cases cs with ⟨whole, fraction, t, hwhole, hfraction, ht, rfl⟩ |
    ⟨whole, t, hwhole, ht, hpoint, rfl⟩
  · rw [readUnsigned_point hwhole hfraction ht] at h
    split at h
    · cases h
    · next hne =>
      cases h
      exact ⟨.point hwhole hfraction (by tauto), by simp⟩
  · rw [readUnsigned_whole hwhole ht hpoint] at h
    split at h
    · cases h
    · next hne =>
      cases h
      exact ⟨.whole hwhole hne, rfl⟩

/-- An unsigned number is read as a whole. -/
theorem IsUnsigned.readUnsigned {cs : List Char} (h : IsUnsigned cs) :
    readUnsigned cs = some (cs, []) := by
  cases h with
  | whole hdigits hne =>
    have hread := readUnsigned_whole hdigits (Text.stops_nil _) (Text.stops_nil _)
    rwa [List.append_nil, if_neg hne] at hread
  | @point whole fraction hdigits hfraction hne =>
    have hread := readUnsigned_point hdigits hfraction (Text.stops_nil _)
    rwa [List.append_nil, if_neg (by tauto)] at hread

/-- A number is read in the same way in front of a text that does not begin with a digit or a
point. -/
theorem readUnsigned_append (cs : List Char) {t : List Char} (hdigit : Stops Char.isDigit t)
    (hdot : Stops (· == '.') t) :
    readUnsigned (cs ++ t) = (readUnsigned cs).map fun (number, rest) => (number, rest ++ t) := by
  rcases digits_cases cs with ⟨whole, fraction, u, hwhole, hfraction, hu, rfl⟩ |
    ⟨whole, u, hwhole, hu, hpoint, rfl⟩
  · rw [readUnsigned_point hwhole hfraction hu, List.append_assoc, List.cons_append,
      List.append_assoc, readUnsigned_point hwhole hfraction (hu.append hdigit)]
    split <;> rfl
  · rw [readUnsigned_whole hwhole hu hpoint, List.append_assoc,
      readUnsigned_whole hwhole (hu.append hdigit) (hpoint.append hdot)]
    split <;> rfl

/-- What is read is a number, and it stands in front of the rest. -/
theorem readNumber_eq_some {cs number rest : List Char} (h : readNumber cs = some (number, rest)) :
    IsNumber number ∧ cs = number ++ rest := by
  cases cs with
  | nil => cases h
  | cons c cs =>
    rw [readNumber] at h
    split at h
    · next hsign =>
      obtain ⟨⟨unsigned, t⟩, hread, heq⟩ := Option.map_eq_some_iff.1 h
      cases heq
      obtain ⟨hunsigned, rfl⟩ := readUnsigned_eq_some hread
      exact ⟨.signed (by simpa using hsign) hunsigned, rfl⟩
    · obtain ⟨hunsigned, heq⟩ := readUnsigned_eq_some h
      exact ⟨.unsigned hunsigned, heq⟩

/-- A number is read as a whole. -/
theorem IsNumber.readNumber {cs : List Char} (h : IsNumber cs) :
    readNumber cs = some (cs, []) := by
  cases h with
  | unsigned h =>
    cases cs with
    | nil => exact absurd rfl h.ne_nil
    | cons c cs => rw [AtomicCss.readNumber, if_neg h.not_sign, h.readUnsigned]
  | @signed sign cs hsign h =>
    rw [AtomicCss.readNumber, if_pos (by simpa using hsign), h.readUnsigned]
    rfl

/-- Reading a number does not look past a character that ends it. -/
theorem readNumber_append {cs t : List Char} (hcs : cs ≠ []) (hdigit : Stops Char.isDigit t)
    (hdot : Stops (· == '.') t) :
    readNumber (cs ++ t) = (readNumber cs).map fun (number, rest) => (number, rest ++ t) := by
  cases cs with
  | nil => exact absurd rfl hcs
  | cons c cs =>
    rw [List.cons_append, readNumber, readNumber]
    split
    · rw [readUnsigned_append cs hdigit hdot, Option.map_map, Option.map_map]
      rfl
    · exact readUnsigned_append (c :: cs) hdigit hdot

/-! ### Reading units -/

/-- A percent sign or a run of letters, which may be empty. -/
def IsUnit (cs : List Char) : Prop :=
  cs = ['%'] ∨ ∀ c ∈ cs, c.isAlpha = true

theorem isUnit_of_all {cs : List Char} (h : cs.all Char.isAlpha = true) : IsUnit cs :=
  .inr (List.all_eq_true.1 h)

/-- What is read as a unit is one, and stands in front of the rest. -/
theorem readUnit_eq (cs : List Char) :
    IsUnit (readUnit cs).1 ∧ cs = (readUnit cs).1 ++ (readUnit cs).2 := by
  unfold readUnit
  split
  · exact ⟨.inl rfl, rfl⟩
  · exact ⟨.inr fun _ hc => List.mem_takeWhile_imp hc, List.takeWhile_append_dropWhile.symm⟩

theorem IsUnit.readUnit {cs : List Char} (h : IsUnit cs) : readUnit cs = (cs, []) := by
  rcases h with rfl | h
  · rfl
  · unfold AtomicCss.readUnit
    split
    · exact absurd (h '%' (by simp)) (by decide)
    · rw [List.takeWhile_eq_self_iff.2 h, List.dropWhile_eq_nil_iff.2 h]

/-- Reading a unit does not look past a character that ends it. -/
theorem readUnit_append {cs t : List Char} (ht : continuesWord t = false)
    (hpercent : cs = [] → Stops (· == '%') t) :
    readUnit (cs ++ t) = ((readUnit cs).1, (readUnit cs).2 ++ t) := by
  rcases cs with _ | ⟨c, cs⟩
  · have hne : ∀ rest, t ≠ '%' :: rest := by
      rintro rest rfl
      simpa using Text.stops_cons.1 (hpercent rfl)
    rw [List.nil_append, readUnit.eq_2 t hne, (stops_isAlpha ht).takeWhile,
      (stops_isAlpha ht).dropWhile]
    rfl
  by_cases hc : c = '%'
  · subst hc
    rfl
  · have hne : ∀ ds rest, c :: ds ≠ '%' :: rest := by
      rintro ds rest heq
      exact hc (List.cons.inj heq).1
    rw [List.cons_append, readUnit.eq_2 _ (hne _), readUnit.eq_2 _ (hne _), ← List.cons_append,
      Text.takeWhile_append_of_stops _ (stops_isAlpha ht),
      Text.dropWhile_append_of_stops _ (stops_isAlpha ht)]

/-! ### Reading dimensions -/

/-- A number and a unit as they are written. -/
structure Dimension.IsWritten (d : Dimension) : Prop where
  number : IsNumber d.number.toList
  unit : IsUnit d.unit.toList

/-- The characters of a number with its unit. -/
def Dimension.chars (d : Dimension) : List Char :=
  d.number.toList ++ d.unit.toList

theorem Dimension.IsWritten.chars_ne_nil {d : Dimension} (h : d.IsWritten) : d.chars ≠ [] := by
  simp [Dimension.chars, h.number.ne_nil]

theorem IsUnit.stops {cs : List Char} (h : IsUnit cs) :
    Stops Char.isDigit cs ∧ Stops (· == '.') cs := by
  rcases h with rfl | h
  · exact ⟨Text.stops_cons.2 (by decide), Text.stops_cons.2 (by decide)⟩
  · have halpha : ∀ c ∈ cs.head?, c.isAlpha = true := fun c hc => h c (List.mem_of_mem_head? hc)
    refine ⟨fun c hc => Text.isDigit_of_isAlpha (halpha c hc), fun c hc => ?_⟩
    have hne : c ≠ '.' := by
      rintro rfl
      exact absurd (halpha _ hc) (by decide)
    simpa using hne

/-- What is read is a number with a unit, and the unit does not go on. -/
theorem readDimension_eq_some {cs rest : List Char} {d : Dimension}
    (h : readDimension cs = some (d, rest)) :
    d.IsWritten ∧ cs = d.chars ++ rest ∧ (d.unit = "" → Stops (· == '%') rest) := by
  obtain ⟨⟨number, t⟩, hread, heq⟩ := Option.map_eq_some_iff.1 h
  cases heq
  obtain ⟨hnumber, rfl⟩ := readNumber_eq_some hread
  obtain ⟨hunit, ht⟩ := readUnit_eq t
  refine ⟨⟨by simpa using hnumber, by simpa using hunit⟩, ?_, ?_⟩
  · simpa [Dimension.chars] using ht
  · intro hempty
    have hnil : (readUnit t).1 = [] := by simpa using hempty
    rw [hnil, List.nil_append] at ht
    rw [← ht]
    rcases t with _ | ⟨c, t⟩
    · exact Text.stops_nil _
    · refine Text.stops_cons.2 (beq_eq_false_iff_ne.2 ?_)
      rintro rfl
      simp [readUnit] at hnil

/-- A number with its unit is read back. -/
theorem Dimension.IsWritten.readDimension {d : Dimension} (h : d.IsWritten) :
    readDimension d.chars = some (d, []) := by
  obtain ⟨hdigit, hdot⟩ := h.unit.stops
  rw [AtomicCss.readDimension, Dimension.chars, readNumber_append h.number.ne_nil hdigit hdot,
    h.number.readNumber]
  simp [h.unit.readUnit]

/-- A number with its unit is read in the same way in front of a text that does not run on. -/
theorem readDimension_append {cs t : List Char} (hcs : cs ≠ []) (ht : continuesWord t = false)
    (hpercent : ∀ d, readDimension cs = some (d, []) → d.unit = "" → Stops (· == '%') t) :
    readDimension (cs ++ t) = (readDimension cs).map fun (d, rest) => (d, rest ++ t) := by
  rw [readDimension, readNumber_append hcs (stops_isDigit ht) (stops_point ht)]
  cases hread : readNumber cs with
  | none => simp [readDimension, hread]
  | some read =>
    obtain ⟨number, rest⟩ := read
    have hunit : readUnit (rest ++ t) = ((readUnit rest).1, (readUnit rest).2 ++ t) := by
      refine readUnit_append ht ?_
      rintro rfl
      exact hpercent ⟨String.ofList number, ""⟩ (by simp [readDimension, hread, readUnit]) rfl
    simp [readDimension, hread, hunit]

/-- Reading a number token does not look past what ends a word, but for a percent sign that would
be its unit. -/
theorem readNumberLexeme_append {cs t : List Char} (hcs : cs ≠ []) (ht : continuesWord t = false)
    (hpercent : ∀ d, readDimension cs = some (d, []) → d.unit = "" → Stops (· == '%') t) :
    readNumberLexeme (cs ++ t) = (readNumberLexeme cs).map fun (l, rest) => (l, rest ++ t) := by
  rw [readNumberLexeme, readNumberLexeme, readDimension_append hcs ht hpercent]
  cases readDimension cs with
  | none => rfl
  | some read =>
    obtain ⟨d, rest⟩ := read
    simp only [Option.map_some, continuesWord_append ht]
    split <;> rfl

end AtomicCss
