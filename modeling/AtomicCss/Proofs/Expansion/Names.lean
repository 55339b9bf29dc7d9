import AtomicCss.Expansion
import AtomicCss.Proofs.Value.Dashed

/-!
# Spellings of property names

A property may be written in camel case or with dashes. The dashed name is the canonical one: it has
no capitals, it is dashed already, and apart from case and dashes it has the characters of the name
as it was written. Dashing neither makes a custom property nor unmakes one, though it puts dashes in
front of capitals. So a value means the same under either name.

* `Property.isCustom_dashed`: a name begins with two dashes if and only if its dashed name does.
* `Property.letters_dashed`: nothing but case and dashes is changed.
* `Property.count_dash_dashed`: how many dashes are put in.
* `expandProperty_dashed`: a name and its dashed name expand alike.
-/

namespace AtomicCss

/-! ### Characters -/

namespace Text

theorem toLower_toLower (c : Char) : c.toLower.toLower = c.toLower :=
  toLower_of_not_isUpper (isUpper_toLower c)

/-- No letter becomes a dash. -/
theorem toLower_eq_dash_iff {c : Char} : c.toLower = '-' ↔ c = '-' := by
  constructor
  · intro h
    cases hupper : c.isUpper with
    | false => rwa [toLower_of_not_isUpper hupper] at h
    | true =>
      have halpha := (toLower_capital hupper).2.2
      rw [h] at halpha
      exact absurd halpha (by decide)
  · rintro rfl
    decide

end Text

namespace Property

/-! ### Two dashes in front -/

/-- A custom property is one whose name begins with two dashes. -/
theorem isCustom_iff {name : String} :
    isCustom name = true ↔ ∃ cs, name.toList = '-' :: '-' :: cs := by
  rw [isCustom, Text.startsWith_iff]
  constructor
  · rintro ⟨cs, hcs⟩
    exact ⟨cs, hcs.symm⟩
  · rintro ⟨cs, hcs⟩
    exact ⟨cs, hcs.symm⟩

/-- After a dash no dash is put in. -/
theorem exists_of_dashAfter_dash {cs ds : List Char} (h : dashAfter (some '-') cs = '-' :: ds) :
    ∃ es, cs = '-' :: es := by
  cases cs with
  | nil => cases h
  | cons c cs =>
    have hdash : needsDash (some '-') c = false := by simp [needsDash]
    rw [dashAfter_cons, hdash] at h
    have hc : c.toLower = '-' := (List.cons.inj h).1
    exact ⟨cs, by rw [Text.toLower_eq_dash_iff.1 hc]⟩

/-- Two dashes in front of a dashed text were there before: a dash that is put in stands before a
letter. -/
theorem exists_of_dashAfter_none {cs ds : List Char} (h : dashAfter none cs = '-' :: '-' :: ds) :
    ∃ es, cs = '-' :: '-' :: es := by
  cases cs with
  | nil => cases h
  | cons c cs =>
    cases hupper : c.isUpper with
    | true =>
      have hdash : needsDash none c = true := by simp [needsDash, hupper]
      rw [dashAfter_cons, hdash] at h
      have hc : c.toLower = '-' := (List.cons.inj (List.cons.inj h).2).1
      rw [Text.toLower_eq_dash_iff.1 hc] at hupper
      exact absurd hupper (by decide)
    | false =>
      rw [dashAfter_cons_of_not_isUpper none hupper] at h
      obtain ⟨rfl, hrest⟩ := List.cons.inj h
      obtain ⟨es, rfl⟩ := exists_of_dashAfter_dash hrest
      exact ⟨es, rfl⟩

/-- Dashing makes no name custom, and keeps a custom one. -/
theorem isCustom_dashed (name : String) : isCustom (dashed name) = true ↔ isCustom name = true := by
  by_cases hcustom : isCustom name = true
  · rw [dashed_eq_self (.inl hcustom)]
  · refine iff_of_false ?_ hcustom
    intro h
    obtain ⟨ds, hds⟩ := isCustom_iff.1 h
    rw [dashed, if_neg hcustom, String.toList_ofList] at hds
    exact hcustom (isCustom_iff.2 (exists_of_dashAfter_none hds))

/-! ### Letters and dashes -/

/-- The characters of a name that are no dashes, in small letters. -/
def letters (cs : List Char) : List Char :=
  (cs.filter (· != '-')).map Char.toLower

theorem letters_cons (c : Char) (cs : List Char) :
    letters (c :: cs) = (if c = '-' then [] else [c.toLower]) ++ letters cs := by
  by_cases hc : c = '-' <;> simp [letters, hc]

/-- Dashes that are put in do not count among the letters. -/
theorem letters_dashAfter (previous : Option Char) (cs : List Char) :
    letters (dashAfter previous cs) = letters cs := by
  induction cs generalizing previous with
  | nil => rfl
  | cons c cs ih =>
    have hlower : letters (c.toLower :: dashAfter (some c) cs) = letters (c :: cs) := by
      rw [letters_cons, letters_cons, ih, Text.toLower_toLower]
      simp only [Text.toLower_eq_dash_iff]
    rw [dashAfter_cons]
    split
    · rw [List.singleton_append, letters_cons, if_pos rfl, List.nil_append, hlower]
    · rw [List.nil_append, hlower]

/-- How many capitals begin a text or follow a small letter; `previous` stands before the text. -/
def humps (previous : Option Char) (cs : List Char) : Nat :=
  (List.zip (previous :: cs.map some) cs).countP fun p => needsDash p.1 p.2

theorem humps_cons (previous : Option Char) (c : Char) (cs : List Char) :
    humps previous (c :: cs) = (if needsDash previous c then 1 else 0) + humps (some c) cs := by
  rw [humps, List.map_cons, List.zip_cons_cons, List.countP_cons, Nat.add_comm]
  rfl

/-- One dash is put in for each hump. -/
theorem count_dash_dashAfter (previous : Option Char) (cs : List Char) :
    (dashAfter previous cs).count '-' = cs.count '-' + humps previous cs := by
  induction cs generalizing previous with
  | nil => rfl
  | cons c cs ih =>
    have hlower : (c.toLower :: dashAfter (some c) cs).count '-' =
        (c :: cs).count '-' + humps (some c) cs := by
      rw [List.count_cons, List.count_cons, ih]
      simp only [beq_iff_eq, Text.toLower_eq_dash_iff]
      omega
    rw [dashAfter_cons, List.count_append, hlower, humps_cons]
    split
    · rw [List.count_singleton_self]
      omega
    · rw [List.count_nil]
      omega

/-- A name keeps its letters, in their order. -/
theorem letters_dashed (name : String) :
    letters (dashed name).toList = letters name.toList := by
  unfold dashed
  split
  · rfl
  · rw [String.toList_ofList, letters_dashAfter]

/-- One dash is put in for each capital that begins a word. -/
theorem count_dash_dashed {name : String} (h : isCustom name = false) :
    (dashed name).toList.count '-' = name.toList.count '-' + humps none name.toList := by
  rw [dashed, h, if_neg Bool.false_ne_true, String.toList_ofList, count_dash_dashAfter]

theorem isUpper_of_mem_dashed {name : String} (h : isCustom name = false) {c : Char}
    (hc : c ∈ (dashed name).toList) : c.isUpper = false := by
  rw [dashed, h, if_neg Bool.false_ne_true, String.toList_ofList] at hc
  exact isUpper_of_mem_dashAfter hc

end Property

/-- The dashed name is canonical: dashing it again changes nothing, it has no capitals unless it is
that of a custom property, which stays as it is and which no other name becomes, it has the letters
of the name as written, and one more dash for each capital at the beginning or after a small letter.
Every value expands alike under a name and under its dashed name. -/
theorem expandProperty_dashed (name : String) :
    let dashed := Property.dashed name
    Property.dashed dashed = dashed ∧
    (Property.isCustom name = false → ∀ c ∈ dashed.toList, c.isUpper = false) ∧
    (Property.isCustom name = true → dashed = name) ∧
    (Property.isCustom dashed = true ↔ Property.isCustom name = true) ∧
    Property.letters dashed.toList = Property.letters name.toList ∧
    (Property.isCustom name = false →
      dashed.toList.count '-' = name.toList.count '-' + Property.humps none name.toList) ∧
    ∀ options value, expandProperty options name value = expandProperty options dashed value := by
  intro dashed
  have hdashed : Property.dashed dashed = dashed := Property.dashed_dashed name
  refine ⟨hdashed, fun hcustom c => Property.isUpper_of_mem_dashed hcustom,
    fun hcustom => Property.dashed_eq_self (.inl hcustom), Property.isCustom_dashed name,
    Property.letters_dashed name, fun hcustom => Property.count_dash_dashed hcustom, ?_⟩
  intro options value
  calc expandProperty options name value
    _ = ⟨walk options dashed [] value⟩ := rfl
    _ = ⟨walk options (Property.dashed dashed) [] value⟩ := by rw [hdashed]

end AtomicCss
