import Mathlib.Tactic.IntervalCases
import AtomicCss.Property.Name
import AtomicCss.Proofs.Value.Token

/-!
# Dashed words

Dashing puts a dash before some capitals and makes all capitals small. It is done once and for all,
and a word remains a word: a number at its beginning has no capitals but in its unit, and there a
dash makes the text run on.

* `Property.dashed_dashed`: a dashed name stays as it is.
* `readNumber_dashAfter`: dashing leaves a number in front as it is.
* `IsWord.dashed`: a dashed word is a word.
-/

namespace AtomicCss

open Text (Stops)

/-! ### Capitals -/

namespace Text

theorem mem_capitals {c : Char} (h : c.isUpper = true) :
    c ∈ "ABCDEFGHIJKLMNOPQRSTUVWXYZ".toList := by
  have hc : c = Char.ofNat c.toNat := (Char.ofNat_toNat c).symm
  have hrange : 65 ≤ c.toNat ∧ c.toNat ≤ 90 := by
    simpa [Char.isUpper, UInt32.le_iff_toNat_le] using h
  rw [hc]
  generalize c.toNat = n at hrange
  obtain ⟨hlow, hhigh⟩ := hrange
  interval_cases n <;> decide

/-- A capital and its small letter are both letters. -/
theorem toLower_capital {c : Char} (h : c.isUpper = true) :
    c.toLower.isUpper = false ∧ c.isAlpha = true ∧ c.toLower.isAlpha = true := by
  have hall : "ABCDEFGHIJKLMNOPQRSTUVWXYZ".toList.all
      (fun d => !d.toLower.isUpper && (d.isAlpha && d.toLower.isAlpha)) = true := by decide
  simpa using List.all_eq_true.1 hall c (mem_capitals h)

theorem toLower_of_not_isUpper {c : Char} (h : c.isUpper = false) : c.toLower = c := by
  have hnot : ¬ (c.val ≥ 'A'.val ∧ c.val ≤ 'Z'.val) := by simpa [Char.isUpper] using h
  rw [Char.toLower, dif_neg hnot]

theorem isUpper_toLower (c : Char) : c.toLower.isUpper = false := by
  cases h : c.isUpper with
  | true => exact (toLower_capital h).1
  | false => rwa [toLower_of_not_isUpper h]

theorem isAlpha_toLower (c : Char) : c.toLower.isAlpha = c.isAlpha := by
  cases h : c.isUpper with
  | true => rw [(toLower_capital h).2.1, (toLower_capital h).2.2]
  | false => rw [toLower_of_not_isUpper h]

end Text

/-! ### Names -/

namespace Property

/-- Whether a dash goes before a character. -/
def needsDash (previous : Option Char) (c : Char) : Bool :=
  c.isUpper && previous.all Char.isLower

theorem dashAfter_cons (previous : Option Char) (c : Char) (cs : List Char) :
    dashAfter previous (c :: cs) =
      (if needsDash previous c then ['-'] else []) ++ c.toLower :: dashAfter (some c) cs := rfl

/-- A character that is no capital stays as it is. -/
theorem dashAfter_cons_of_not_isUpper (previous : Option Char) {c : Char} (h : c.isUpper = false)
    (cs : List Char) : dashAfter previous (c :: cs) = c :: dashAfter (some c) cs := by
  rw [dashAfter_cons, needsDash, h, Text.toLower_of_not_isUpper h]
  rfl

theorem getLast?_or {cs : List Char} (h : cs ≠ []) (previous : Option Char) :
    cs.getLast?.or previous = cs.getLast? := by
  rw [List.getLast?_eq_some_getLast h]
  rfl

/-- Text without capitals is left as it is. -/
theorem dashAfter_append_of_not_isUpper (previous : Option Char) {cs : List Char}
    (h : ∀ c ∈ cs, c.isUpper = false) (t : List Char) :
    dashAfter previous (cs ++ t) = cs ++ dashAfter (cs.getLast?.or previous) t := by
  induction cs generalizing previous with
  | nil => rfl
  | cons c cs ih =>
    rw [List.cons_append, dashAfter_cons_of_not_isUpper previous (h c (by simp)),
      ih (some c) fun d hd => h d (by simp [hd])]
    cases cs with
    | nil => rfl
    | cons d cs =>
      rw [List.getLast?_cons_cons, getLast?_or (by simp), getLast?_or (by simp)]
      rfl

/-- A text without capitals stays as it is. -/
theorem dashAfter_of_not_isUpper (previous : Option Char) {cs : List Char}
    (h : ∀ c ∈ cs, c.isUpper = false) : dashAfter previous cs = cs := by
  have happend := dashAfter_append_of_not_isUpper previous h []
  rwa [List.append_nil, dashAfter, List.append_nil] at happend

/-- A dashed text has no capitals. -/
theorem isUpper_of_mem_dashAfter {previous : Option Char} {cs : List Char} {c : Char}
    (h : c ∈ dashAfter previous cs) : c.isUpper = false := by
  induction cs generalizing previous with
  | nil => cases h
  | cons d cs ih =>
    rw [dashAfter_cons] at h
    rcases List.mem_append.1 h with h | h
    · split at h
      · rw [List.mem_singleton.1 h]
        decide
      · cases h
    · rcases List.mem_cons.1 h with rfl | h
      · exact Text.isUpper_toLower d
      · exact ih h

/-- No character but a capital is lost. -/
theorem mem_dashAfter (previous : Option Char) {cs : List Char} {c : Char}
    (hc : c.isUpper = false) (h : c ∈ cs) : c ∈ dashAfter previous cs := by
  induction cs generalizing previous with
  | nil => cases h
  | cons d cs ih =>
    rw [dashAfter_cons]
    refine List.mem_append_right _ ?_
    rcases List.mem_cons.1 h with rfl | h
    · rw [Text.toLower_of_not_isUpper hc]
      exact List.mem_cons_self
    · exact List.mem_cons_of_mem _ (ih (some d) h)

/-- Characters that are no capitals are kept. -/
theorem mem_dashed {name : String} {c : Char} (hc : c.isUpper = false) (h : c ∈ name.toList) :
    c ∈ (dashed name).toList := by
  unfold dashed
  split
  · exact h
  · rw [String.toList_ofList]
    exact mem_dashAfter none hc h

/-- A name of a custom property stays as it is, and so does a name without capitals. -/
theorem dashed_eq_self {name : String}
    (h : isCustom name = true ∨ ∀ c ∈ name.toList, c.isUpper = false) : dashed name = name := by
  unfold dashed
  split
  · rfl
  · next hcustom =>
    rw [dashAfter_of_not_isUpper none (h.resolve_left hcustom), String.ofList_toList]

/-- A dashed name stays as it is. -/
theorem dashed_dashed (name : String) : dashed (dashed name) = dashed name := by
  refine dashed_eq_self ?_
  unfold dashed
  split
  · next hcustom => exact .inl hcustom
  · right
    intro c hc
    rw [String.toList_ofList] at hc
    exact isUpper_of_mem_dashAfter hc

end Property

open Property

/-! ### Words -/

theorem isUpper_of_isDigit {c : Char} (h : c.isDigit = true) : c.isUpper = false := by
  cases hupper : c.isUpper with
  | false => rfl
  | true => rw [Text.isDigit_of_isAlpha (Text.toLower_capital hupper).2.1] at h; cases h

/-- Dashing does not make a text begin with a character that is neither a dash nor a letter. -/
theorem stops_dashAfter {p : Char → Bool} (hdash : p '-' = false)
    (halpha : ∀ c, c.isAlpha = true → p c = false) {cs : List Char} (h : Stops p cs)
    (previous : Option Char) : Stops p (dashAfter previous cs) := by
  cases cs with
  | nil => exact Text.stops_nil _
  | cons c cs =>
    rw [dashAfter_cons]
    split
    · exact Text.stops_cons.2 hdash
    · refine Text.stops_cons.2 ?_
      cases hupper : c.isUpper with
      | true => exact halpha _ (Text.toLower_capital hupper).2.2
      | false =>
        rw [Text.toLower_of_not_isUpper hupper]
        exact Text.stops_cons.1 h

/-- A text that does not begin with a digit does not once it is dashed. -/
theorem stops_isDigit_dashAfter {cs : List Char} (h : Stops Char.isDigit cs)
    (previous : Option Char) : Stops Char.isDigit (dashAfter previous cs) :=
  stops_dashAfter (by decide) (fun _ => Text.isDigit_of_isAlpha) h previous

theorem stops_point_dashAfter {cs : List Char} (h : Stops (· == '.') cs)
    (previous : Option Char) : Stops (· == '.') (dashAfter previous cs) := by
  refine stops_dashAfter (by decide) (fun c hc => beq_eq_false_iff_ne.2 ?_) h previous
  rintro rfl
  exact absurd hc (by decide)

/-- Dashing leaves a number in front as it is. -/
theorem readUnsigned_dashAfter (previous : Option Char) (cs : List Char) :
    readUnsigned (dashAfter previous cs) =
      (readUnsigned cs).map fun (number, rest) => (number, dashAfter number.getLast? rest) := by
  have hdigits : ∀ {ds : List Char}, AllDigits ds → ∀ c ∈ ds, c.isUpper = false :=
    fun hds c hc => isUpper_of_isDigit (hds c hc)
  rcases digits_cases cs with ⟨whole, fraction, t, hwhole, hfraction, ht, rfl⟩ |
    ⟨whole, t, hwhole, ht, hpoint, rfl⟩
  · have hfront : ∀ c ∈ whole ++ '.' :: fraction, c.isUpper = false := by
      intro c hc
      rcases List.mem_append.1 hc with hc | hc
      · exact hdigits hwhole c hc
      · rcases List.mem_cons.1 hc with rfl | hc
        · decide
        · exact hdigits hfraction c hc
    have hsplit : whole ++ '.' :: (fraction ++ t) = (whole ++ '.' :: fraction) ++ t := by simp
    rw [readUnsigned_point hwhole hfraction ht, hsplit,
      dashAfter_append_of_not_isUpper previous hfront, getLast?_or (by simp), List.append_assoc,
      List.cons_append, readUnsigned_point hwhole hfraction (stops_isDigit_dashAfter ht _)]
    split <;> rfl
  · rw [readUnsigned_whole hwhole ht hpoint,
      dashAfter_append_of_not_isUpper previous (hdigits hwhole),
      readUnsigned_whole hwhole (stops_isDigit_dashAfter ht _) (stops_point_dashAfter hpoint _)]
    split
    · rfl
    · next hne => rw [getLast?_or hne]; rfl

theorem readUnsigned_cons_of_isAlpha {c : Char} (h : c.isAlpha = true) (cs : List Char) :
    readUnsigned (c :: cs) = none := by
  have hdigit : Stops Char.isDigit (c :: cs) := Text.stops_cons.2 (Text.isDigit_of_isAlpha h)
  have hpoint : Stops (· == '.') (c :: cs) := by
    refine Text.stops_cons.2 (beq_eq_false_iff_ne.2 ?_)
    rintro rfl
    exact absurd h (by decide)
  exact @readUnsigned_whole [] (c :: cs) (by simp [AllDigits]) hdigit hpoint

/-- The number at the beginning of a text is the same once it is dashed. -/
theorem readNumber_dashAfter (previous : Option Char) (cs : List Char) :
    readNumber (dashAfter previous cs) =
      (readNumber cs).map fun (number, rest) => (number, dashAfter number.getLast? rest) := by
  cases cs with
  | nil => rfl
  | cons c cs =>
    by_cases hsign : (c = '+' || c = '-') = true
    · have hupper : c.isUpper = false := by
        rcases (by simpa using hsign : c = '+' ∨ c = '-') with rfl | rfl <;> decide
      rw [dashAfter_cons_of_not_isUpper previous hupper, readNumber, readNumber, if_pos hsign,
        if_pos hsign, readUnsigned_dashAfter]
      cases hread : readUnsigned cs with
      | none => rfl
      | some read =>
        obtain ⟨number, rest⟩ := read
        obtain ⟨d, ds, hds⟩ := List.exists_cons_of_ne_nil (readUnsigned_eq_some hread).1.ne_nil
        simp [hds, List.getLast?_cons_cons]
    · rw [readNumber, if_neg hsign]
      cases hdash : needsDash previous c with
      | true =>
        -- A dash before a letter is no sign of a number.
        have hupper : c.isUpper = true := by simp_all [needsDash]
        obtain ⟨-, halpha, halpha'⟩ := Text.toLower_capital hupper
        rw [dashAfter_cons, hdash, readUnsigned_cons_of_isAlpha halpha]
        simp [readNumber, readUnsigned_cons_of_isAlpha halpha']
      | false =>
        have hsign' : ¬ (c.toLower = '+' || c.toLower = '-') = true := by
          cases hupper : c.isUpper with
          | false => rwa [Text.toLower_of_not_isUpper hupper]
          | true =>
            intro heq
            have halpha := (Text.toLower_capital hupper).2.2
            rcases (by simpa using heq : c.toLower = '+' ∨ c.toLower = '-') with h | h <;>
              rw [h] at halpha <;> exact absurd halpha (by decide)
        rw [← readUnsigned_dashAfter, dashAfter_cons, hdash]
        exact if_neg hsign'

/-- If a dashed text does not run on behind a unit, then the text does not. -/
theorem continuesWord_dropWhile_of_dashAfter {previous : Option Char} {cs : List Char}
    (h : continuesWord ((dashAfter previous cs).dropWhile Char.isAlpha) = false) :
    continuesWord (cs.dropWhile Char.isAlpha) = false := by
  induction cs generalizing previous with
  | nil => rfl
  | cons c cs ih =>
    cases halpha : c.isAlpha with
    | true =>
      have hlower : c.toLower.isAlpha = true := (Text.isAlpha_toLower c).trans halpha
      cases hdash : needsDash previous c with
      | true =>
        rw [dashAfter_cons, hdash] at h
        have htrue : continuesWord ('-' :: c.toLower :: dashAfter (some c) cs) = true := rfl
        exact absurd (htrue.symm.trans h) (by simp)
      | false =>
        rw [dashAfter_cons, hdash] at h
        rw [List.dropWhile_cons_of_pos halpha]
        exact ih (by simpa [hlower] using h)
    | false =>
      have hupper : c.isUpper = false := by
        cases hupper : c.isUpper with
        | false => rfl
        | true => rw [(Text.toLower_capital hupper).2.1] at halpha; cases halpha
      rw [dashAfter_cons_of_not_isUpper previous hupper] at h
      rw [List.dropWhile_cons_of_neg (by simp [halpha])] at h ⊢
      exact h

/-- What ends a word in the dashed text ends it in the text. -/
theorem continuesWord_of_dashAfter {c : Char} (hc : c.isLower = false) {cs : List Char}
    (h : continuesWord (dashAfter (some c) cs) = false) : continuesWord cs = false := by
  cases cs with
  | nil => rfl
  | cons d cs =>
    have hdash : needsDash (some c) d = false := by simp [needsDash, hc]
    rw [dashAfter_cons, hdash] at h
    cases hupper : d.isUpper with
    | false =>
      rw [Text.toLower_of_not_isUpper hupper] at h
      exact h
    | true =>
      have hname : isNameChar d.toLower = true :=
        isNameChar_of_isAlphanum (by simp [Char.isAlphanum, (Text.toLower_capital hupper).2.2])
      simp [continuesWord, hname] at h

theorem continuesWord_readUnit_of_dashAfter {previous : Option Char} {cs : List Char}
    (h : continuesWord (readUnit (dashAfter previous cs)).2 = false) :
    continuesWord (readUnit cs).2 = false := by
  by_cases hpercent : ∃ rest, cs = '%' :: rest
  · obtain ⟨rest, rfl⟩ := hpercent
    exact continuesWord_of_dashAfter (by decide) h
  · have hstops : Stops (· == '%') cs := by
      cases cs with
      | nil => exact Text.stops_nil _
      | cons c cs =>
        refine Text.stops_cons.2 (beq_eq_false_iff_ne.2 ?_)
        rintro rfl
        exact hpercent ⟨cs, rfl⟩
    have hnot : ∀ {ds : List Char}, Stops (· == '%') ds →
        (readUnit ds).2 = ds.dropWhile Char.isAlpha := by
      intro ds hds
      rw [readUnit.eq_2]
      rintro rest rfl
      simpa using Text.stops_cons.1 hds
    have halpha : ∀ c : Char, c.isAlpha = true → (c == '%') = false := by
      intro c hc
      refine beq_eq_false_iff_ne.2 ?_
      rintro rfl
      exact absurd hc (by decide)
    rw [hnot (stops_dashAfter (by decide) halpha hstops previous)] at h
    rw [hnot hstops]
    exact continuesWord_dropWhile_of_dashAfter h

/-- A dashed text begins with a number only if the text does. -/
theorem readNumberLexeme_dashAfter {cs : List Char} (h : readNumberLexeme cs = none)
    (previous : Option Char) : readNumberLexeme (dashAfter previous cs) = none := by
  rw [readNumberLexeme, readDimension, readNumber_dashAfter]
  rw [readNumberLexeme, readDimension] at h
  cases hread : readNumber cs with
  | none => rfl
  | some read =>
    obtain ⟨number, rest⟩ := read
    simp only [hread, Option.map_some, ite_eq_left_iff, reduceCtorEq, imp_false,
      Bool.not_eq_true, Bool.not_eq_false] at h ⊢
    by_contra hnot
    have hfalse := continuesWord_readUnit_of_dashAfter (by simpa using hnot)
    rw [h] at hfalse
    cases hfalse

/-- A dashed word is made of word characters. -/
theorem isWordChar_of_mem_dashAfter {previous : Option Char} {cs : List Char}
    (hcs : ∀ c ∈ cs, isWordChar c = true) {c : Char} (h : c ∈ dashAfter previous cs) :
    isWordChar c = true := by
  induction cs generalizing previous with
  | nil => cases h
  | cons d cs ih =>
    rw [dashAfter_cons] at h
    rcases List.mem_append.1 h with h | h
    · split at h
      · rw [List.mem_singleton.1 h]
        decide
      · cases h
    · rcases List.mem_cons.1 h with rfl | h
      · cases hupper : d.isUpper with
        | false =>
          rw [Text.toLower_of_not_isUpper hupper]
          exact hcs d (by simp)
        | true =>
          refine isWordChar_of_isNameChar (isNameChar_of_isAlphanum ?_)
          simp [Char.isAlphanum, (Text.toLower_capital hupper).2.2]
      · exact ih (fun e he => hcs e (by simp [he])) h

/-- A dashed word is a word. -/
theorem IsWord.dashed {text : String} (h : IsWord text.toList) :
    IsWord (dashed text).toList := by
  unfold Property.dashed
  split
  · exact h
  · rw [String.toList_ofList]
    refine ⟨?_, fun c hc => isWordChar_of_mem_dashAfter h.chars hc,
      readNumberLexeme_dashAfter h.not_number none⟩
    cases hchars : text.toList with
    | nil => exact absurd hchars h.ne_nil
    | cons c cs => simp [dashAfter_cons]

end AtomicCss
