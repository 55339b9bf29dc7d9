import AtomicCss.Naming
import AtomicCss.Proofs.Condition

/-!
# What the name of a declaration tells

The conditions enter the name of a declaration as one text, sorted and without marks in between, and
the property and the values stand before them, the values with commas in between. The order in which
conditions nest is lost on purpose. Where properties, values and conditions begin and end is not
lost, unless one of them goes on with what another one begins with.

* `sortTexts_eq_iff`: sorting forgets the order and nothing else.
* `modifierText_eq_of_perm`: the text does not depend on the order of the conditions.
* `modifierText_eq_iff_perm`: for plain conditions that is all it forgets.
* `intercalate_values_inj`: what a row of values tells.
* `Declaration.canonicalText_eq_iff`: what the text that names a declaration tells.
-/

namespace AtomicCss

/-! ### Sorting -/

theorem perm_sortTexts (l : List String) : (sortTexts l).Perm l :=
  List.mergeSort_perm l _

theorem mem_sortTexts {l : List String} {s : String} : s ∈ sortTexts l ↔ s ∈ l :=
  (perm_sortTexts l).mem_iff

theorem pairwise_sortTexts (l : List String) : (sortTexts l).Pairwise (· ≤ ·) := by
  have htrans : ∀ a b c : String, decide (a ≤ b) = true → decide (b ≤ c) = true →
      decide (a ≤ c) = true := by
    intro a b c hab hbc
    exact decide_eq_true (String.le_trans (of_decide_eq_true hab) (of_decide_eq_true hbc))
  have htotal : ∀ a b : String, (decide (a ≤ b) || decide (b ≤ a)) = true := by
    intro a b
    simpa using String.le_total a b
  exact (List.pairwise_mergeSort htrans htotal l).imp of_decide_eq_true

/-- Sorting forgets the order and nothing else. -/
theorem sortTexts_eq_iff {l m : List String} : sortTexts l = sortTexts m ↔ l.Perm m := by
  constructor
  · intro h
    exact (perm_sortTexts l).symm.trans (h ▸ perm_sortTexts m)
  · intro h
    have hperm : (sortTexts l).Perm (sortTexts m) :=
      (perm_sortTexts l).trans (h.trans (perm_sortTexts m).symm)
    exact hperm.eq_of_pairwise (fun _ _ _ _ => String.le_antisymm) (pairwise_sortTexts l)
      (pairwise_sortTexts m)

theorem sortTexts_of_pairwise {l : List String} (h : l.Pairwise (· ≤ ·)) : sortTexts l = l :=
  (perm_sortTexts l).eq_of_pairwise (fun _ _ _ _ => String.le_antisymm) (pairwise_sortTexts l) h

/-! ### The texts of conditions -/

variable {p q : List Condition}

/-- The order of at-rules does not show in their sorted texts. -/
theorem atRuleTexts_eq_of_perm
    (h : (p.filter Condition.isAtRule).Perm (q.filter Condition.isAtRule)) :
    atRuleTexts p = atRuleTexts q :=
  sortTexts_eq_iff.2 (h.map _)

/-- The order of conditions does not show in the text that a name is made of. -/
theorem modifierText_eq_of_perm (h : p.Perm q) : modifierText p = modifierText q := by
  have hempty : p.isEmpty = q.isEmpty := by
    rw [Bool.eq_iff_iff, List.isEmpty_iff_length_eq_zero, List.isEmpty_iff_length_eq_zero,
      h.length_eq]
  have hselectors : selectorTexts p = selectorTexts q :=
    sortTexts_eq_iff.2 ((h.filter _).map _)
  simp only [modifierText, hempty, hselectors, atRuleTexts_eq_of_perm (h.filter _)]

/-- Conditions that are sorted already are put together as they stand. -/
theorem modifierText_of_pairwise (hp : p ≠ [])
    (hselectors : ((p.filter (!·.isAtRule)).map Condition.text).Pairwise (· ≤ ·))
    (hrules : ((p.filter Condition.isAtRule).map Condition.text).Pairwise (· ≤ ·)) :
    modifierText p = String.join ((p.filter (!·.isAtRule)).map Condition.text) ++
      String.join ((p.filter Condition.isAtRule).map Condition.text) := by
  have hempty : p.isEmpty = false := by simpa using hp
  simp [modifierText, hempty, selectorTexts, atRuleTexts, sortTexts_of_pairwise hselectors,
    sortTexts_of_pairwise hrules]

/-- The texts that are sorted come from the conditions of the path. -/
theorem mem_sortTexts_filter {keep : Condition → Bool} {t : String} :
    t ∈ sortTexts ((p.filter keep).map Condition.text) ↔
      ∃ c ∈ p, keep c = true ∧ c.text = t := by
  rw [mem_sortTexts]
  simp [and_assoc]

/-- The text of conditions: the selectors first, then the at-rules. -/
theorem toList_modifierText (hp : p ≠ []) :
    (modifierText p).toList =
      ((selectorTexts p).map String.toList).flatten ++
        ((atRuleTexts p).map String.toList).flatten := by
  have hempty : p.isEmpty = false := by simpa using hp
  simp [modifierText, hempty, List.flatMap_def]

/-! ### Plain conditions -/

open Condition (isAtMark isConditionMark)

/-- A path whose conditions are plain and read off keys. -/
def PlainPath (path : List Condition) : Prop :=
  ∀ c ∈ path, c.IsRead ∧ c.Plain

/-- The selectors of a plain path can be told apart in a row. -/
theorem standsAlone_of_mem_selectorTexts (hp : PlainPath p) :
    ∀ x ∈ (selectorTexts p).map String.toList,
      Text.StandsAlone isConditionMark 2 x ∧ x.head? = some ':' := by
  intro x hx
  obtain ⟨t, ht, rfl⟩ := List.mem_map.1 hx
  obtain ⟨c, hc, hkind, rfl⟩ := mem_sortTexts_filter.1 ht
  exact (hp c hc).2.selector (hp c hc).1 (by simpa using hkind)

theorem standsAlone_of_mem_atRuleTexts (hp : PlainPath p) :
    ∀ x ∈ (atRuleTexts p).map String.toList,
      Text.StandsAlone isAtMark 2 x ∧ x.head? = some '@' := by
  intro x hx
  obtain ⟨t, ht, rfl⟩ := List.mem_map.1 hx
  obtain ⟨c, hc, hkind, rfl⟩ := mem_sortTexts_filter.1 ht
  exact (hp c hc).2.atRule (hp c hc).1 hkind

/-- The at-rules begin with a mark that no selector begins with. -/
theorem head_atRuleTexts (hp : PlainPath p) :
    ∀ c ∈ ((atRuleTexts p).map String.toList).flatten.head?,
      isConditionMark c = true ∧ c ≠ ':' := by
  intro c hc
  cases htexts : (atRuleTexts p).map String.toList with
  | nil => simp [htexts] at hc
  | cons x xs =>
    have hx := (standsAlone_of_mem_atRuleTexts hp x (by simp [htexts])).2
    have hmark : '@' = c := by simpa [htexts, List.head?_append, hx] using hc
    subst hmark
    decide

/-- The text of plain conditions begins with a mark. -/
theorem head_modifierText (hp : PlainPath p) (hne : p ≠ []) :
    ∃ c, (modifierText p).toList.head? = some c ∧ isConditionMark c = true := by
  have hmark : ∀ c ∈ (modifierText p).toList.head?, isConditionMark c = true := by
    rw [toList_modifierText hne]
    exact fun c hc => Text.isMark_of_mem_head (by decide : isConditionMark ':' = true)
      (standsAlone_of_mem_selectorTexts hp) (head_atRuleTexts hp) hc
  cases hhead : (modifierText p).toList.head? with
  | some c => exact ⟨c, rfl, hmark c hhead⟩
  | none =>
    -- Each condition has a text with at least its marks, so the whole is not empty.
    exfalso
    rw [List.head?_eq_none_iff, toList_modifierText hne, List.append_eq_nil_iff,
      List.flatten_eq_nil_iff, List.flatten_eq_nil_iff] at hhead
    obtain ⟨c, p, rfl⟩ := List.exists_cons_of_ne_nil hne
    have hc : c ∈ c :: p := by simp
    by_cases hkind : c.isAtRule = true
    · have htext : c.text ∈ atRuleTexts (c :: p) :=
        mem_sortTexts_filter.2 ⟨c, hc, hkind, rfl⟩
      have hnil := hhead.2 _ (List.mem_map_of_mem htext)
      simpa [hnil] using ((hp c hc).2.atRule (hp c hc).1 hkind).2
    · have hkind : c.isAtRule = false := by simpa using hkind
      have htext : c.text ∈ selectorTexts (c :: p) :=
        mem_sortTexts_filter.2 ⟨c, hc, by simp [hkind], rfl⟩
      have hnil := hhead.1 _ (List.mem_map_of_mem htext)
      simpa [hnil] using ((hp c hc).2.selector (hp c hc).1 hkind).2

/-- The text of plain conditions is never the one for no conditions. -/
theorem modifierText_ne_null (hp : PlainPath p) (hne : p ≠ []) : modifierText p ≠ "null" := by
  intro h
  obtain ⟨c, hhead, hmark⟩ := head_modifierText hp hne
  rw [h] at hhead
  cases hhead
  exact absurd hmark (by decide)

/-- The text of plain conditions determines the texts of the selectors and of the at-rules. -/
theorem texts_eq_of_modifierText_eq (hp : PlainPath p) (hq : PlainPath q) (hpne : p ≠ [])
    (hqne : q ≠ []) (h : modifierText p = modifierText q) :
    selectorTexts p = selectorTexts q ∧ atRuleTexts p = atRuleTexts q := by
  have hchars := congrArg String.toList h
  rw [toList_modifierText hpne, toList_modifierText hqne] at hchars
  have hinj : Function.Injective (List.map String.toList) :=
    fun l m hlm => List.map_inj_right (fun s t => String.toList_inj.1) |>.1 hlm
  obtain ⟨hselectors, hrules⟩ := Text.flatten_append_inj (by decide : isConditionMark ':' = true)
    (standsAlone_of_mem_selectorTexts hp) (standsAlone_of_mem_selectorTexts hq)
    (head_atRuleTexts hp) (head_atRuleTexts hq) hchars
  have hrules' := Text.flatten_append_inj (u := []) (v := []) (by decide : isAtMark '@' = true)
    (standsAlone_of_mem_atRuleTexts hp) (standsAlone_of_mem_atRuleTexts hq) (by simp) (by simp)
    (by simpa using hrules)
  exact ⟨hinj hselectors, hinj hrules'.1⟩

/-- Conditions that are read off texts are told by their sorted texts, up to their order. -/
theorem perm_filter_of_texts_eq {keep : Condition → Bool} (hp : PlainPath p) (hq : PlainPath q)
    (h : sortTexts ((p.filter keep).map Condition.text) =
      sortTexts ((q.filter keep).map Condition.text)) :
    (p.filter keep).Perm (q.filter keep) := by
  -- The conditions are read off their texts again.
  have hread : ∀ {path : List Condition}, PlainPath path →
      ((path.filter keep).map Condition.text).map Condition.ofText = path.filter keep :=
    fun hpath => Condition.map_ofText_texts fun c hc => (hpath c (List.mem_filter.1 hc).1).1
  have hperm := (sortTexts_eq_iff.1 h).map Condition.ofText
  rwa [hread hp, hread hq] at hperm

/-- The text of plain conditions forgets their order and nothing else. -/
theorem modifierText_eq_iff_perm (hp : PlainPath p) (hq : PlainPath q) :
    modifierText p = modifierText q ↔ p.Perm q := by
  refine ⟨fun h => ?_, modifierText_eq_of_perm⟩
  by_cases hpne : p = []
  · subst hpne
    by_cases hqne : q = []
    · rw [hqne]
    · exact absurd h.symm (modifierText_ne_null hq hqne)
  · by_cases hqne : q = []
    · subst hqne
      exact absurd h (modifierText_ne_null hp hpne)
    · obtain ⟨hselectors, hrules⟩ := texts_eq_of_modifierText_eq hp hq hpne hqne h
      have hfilters := (perm_filter_of_texts_eq hp hq hrules).append
        (perm_filter_of_texts_eq hp hq hselectors)
      exact (List.filter_append_perm Condition.isAtRule p).symm.trans
        (hfilters.trans (List.filter_append_perm Condition.isAtRule q))

/-! ### Values in a row -/

/-- Values end where a condition begins, if each of them does. -/
theorem standsAlone_intercalate : ∀ {values : List String},
    (∀ v ∈ values, Text.StandsAlone isConditionMark 0 v.toList) →
      Text.StandsAlone isConditionMark 0 (String.intercalate ", " values).toList
  | [], _ => by
    rw [String.intercalate_nil]
    decide
  | [v], h => by
    rw [String.intercalate_singleton]
    exact h v (by simp)
  | v :: w :: values, h => by
    have hcomma : Text.StandsAlone isConditionMark 0 ", ".toList := by decide
    rw [String.intercalate_cons_cons, String.toList_append, String.toList_append]
    exact ((h v (by simp)).append hcomma).append
      (standsAlone_intercalate fun u hu => h u (by simp [hu]))

/-- Whether two lists of values are told apart by their rows: one value each, or values that hold
the separator within parentheses only. -/
def SeparateValues (vs ws : List String) : Prop :=
  (vs.length = 1 ∧ ws.length = 1) ∨ ∀ v ∈ vs ++ ws, Text.Unseparated ',' ' ' v.toList

instance (vs ws : List String) : Decidable (SeparateValues vs ws) :=
  inferInstanceAs (Decidable (_ ∨ _))

/-- Values in a row are determined by the whole, unless a value holds the separator. -/
theorem intercalate_values_inj {vs ws : List String} (hvs : vs ≠ []) (hws : ws ≠ [])
    (hseparate : SeparateValues vs ws)
    (h : String.intercalate ", " vs = String.intercalate ", " ws) : vs = ws := by
  rcases hseparate with ⟨hv, hw⟩ | hall
  · obtain ⟨v, rfl⟩ := List.length_eq_one_iff.1 hv
    obtain ⟨w, rfl⟩ := List.length_eq_one_iff.1 hw
    rw [String.intercalate_singleton, String.intercalate_singleton] at h
    rw [h]
  · have hchars := congrArg String.toList h
    rw [String.toList_intercalate, String.toList_intercalate] at hchars
    have hparts : ∀ {us : List String}, us ⊆ vs ++ ws →
        ∀ x ∈ us.map String.toList, Text.Unseparated ',' ' ' x := by
      intro us hu x hx
      obtain ⟨u, hmem, rfl⟩ := List.mem_map.1 hx
      exact hall u (hu hmem)
    have hlists := Text.intercalate_inj (by decide) (by simpa using hvs) (by simpa using hws)
      (hparts (List.subset_append_left vs ws)) (hparts (List.subset_append_right vs ws)) hchars
    exact List.map_inj_right (fun s t => String.toList_inj.1) |>.1 hlists

/-- Without conditions, the text goes on with a word that is not read as a condition. -/
theorem append_null_ne {s t : String} (hs : Text.StandsAlone isConditionMark 0 s.toList)
    (ht : Text.StandsAlone isConditionMark 0 t.toList) (hq : PlainPath q) (hne : q ≠ []) :
    s ++ "null" ≠ t ++ modifierText q := by
  intro h
  obtain ⟨c, hhead, hmark⟩ := head_modifierText hq hne
  have hnull : Text.StandsAlone isConditionMark 0 (s.toList ++ "null".toList) :=
    hs.append (by decide)
  have hchars : (s.toList ++ "null".toList) ++ [] = t.toList ++ (modifierText q).toList := by
    rw [List.append_nil, ← String.toList_append, ← String.toList_append, h]
  obtain ⟨-, hnil⟩ := Text.append_standsAlone_inj hnull ht (by simp) (by simpa [hhead]) hchars
  rw [← hnil] at hhead
  cases hhead

/-- Plain values end where the conditions begin. -/
theorem append_modifierText_inj {s t : String} (hs : Text.StandsAlone isConditionMark 0 s.toList)
    (ht : Text.StandsAlone isConditionMark 0 t.toList) (hp : PlainPath p) (hq : PlainPath q)
    (h : s ++ modifierText p = t ++ modifierText q) :
    s = t ∧ modifierText p = modifierText q := by
  by_cases hpne : p = []
  · subst hpne
    by_cases hqne : q = []
    · subst hqne
      exact ⟨(String.append_left_inj _).1 h, rfl⟩
    · exact absurd h (append_null_ne hs ht hq hqne)
  · by_cases hqne : q = []
    · subst hqne
      exact absurd h.symm (append_null_ne ht hs hp hpne)
    · obtain ⟨c, hc, hcmark⟩ := head_modifierText hp hpne
      obtain ⟨e, he, hemark⟩ := head_modifierText hq hqne
      have hchars := congrArg String.toList h
      rw [String.toList_append, String.toList_append] at hchars
      obtain ⟨hst, hmodifiers⟩ :=
        Text.append_standsAlone_inj hs ht (by simpa [hc]) (by simpa [he]) hchars
      exact ⟨String.toList_inj.1 hst, String.toList_inj.1 hmodifiers⟩

/-! ### Declarations -/

namespace Declaration

/-- Whether the values of two declarations end where their conditions begin and each condition ends
where the next one begins. Values that are the same need not. -/
def PlainParts (d e : Declaration) : Prop :=
  (d.values = e.values ∨
    ∀ v ∈ d.values ++ e.values, Text.StandsAlone isConditionMark 0 v.toList) ∧
  ∀ c ∈ d.conditions ++ e.conditions, c.Plain

instance (d e : Declaration) : Decidable (PlainParts d e) :=
  inferInstanceAs (Decidable ((_ ∨ _) ∧ _))

/-- If neither property goes on where the other ends, then the text that names a declaration tells
the property. -/
theorem property_eq_of_canonicalText_eq {d e : Declaration}
    (hproperty : d.property.toList <+: e.property.toList ∨
      e.property.toList <+: d.property.toList → d.property = e.property)
    (h : d.canonicalText = e.canonicalText) : d.property = e.property := by
  have hchars := congrArg String.toList h
  simp only [canonicalText, String.toList_append, List.append_assoc,
    List.append_cancel_left_eq] at hchars
  -- Both properties are beginnings of one text, so one of them is a beginning of the other.
  have hd := List.prefix_append d.property.toList
    ((String.intercalate ", " d.values).toList ++ (modifierText d.conditions).toList)
  rw [hchars] at hd
  exact hproperty (List.prefix_or_prefix_of_prefix hd (List.prefix_append _ _))

/-- The values in a row and the text of the conditions, if the whole is the same. -/
theorem parts_eq_of_append_eq {d e : Declaration} (hd : ∀ c ∈ d.conditions, c.IsRead)
    (he : ∀ c ∈ e.conditions, c.IsRead)
    (hparts : d.conditions.Perm e.conditions ∨ d.PlainParts e)
    (h : String.intercalate ", " d.values ++ modifierText d.conditions =
      String.intercalate ", " e.values ++ modifierText e.conditions) :
    String.intercalate ", " d.values = String.intercalate ", " e.values ∧
      d.conditions.Perm e.conditions := by
  rcases hparts with hperm | ⟨hvalues, hplain⟩
  · rw [modifierText_eq_of_perm hperm] at h
    exact ⟨(String.append_left_inj _).1 h, hperm⟩
  · have hdpath : PlainPath d.conditions :=
      fun c hc => ⟨hd c hc, hplain c (List.mem_append_left _ hc)⟩
    have hepath : PlainPath e.conditions :=
      fun c hc => ⟨he c hc, hplain c (List.mem_append_right _ hc)⟩
    rcases hvalues with hsame | halone
    · rw [hsame] at h ⊢
      exact ⟨rfl, (modifierText_eq_iff_perm hdpath hepath).1 ((String.append_right_inj _).1 h)⟩
    · have hdvalues := standsAlone_intercalate fun v hv => halone v (List.mem_append_left _ hv)
      have hevalues := standsAlone_intercalate fun v hv => halone v (List.mem_append_right _ hv)
      obtain ⟨htexts, hmodifiers⟩ := append_modifierText_inj hdvalues hevalues hdpath hepath h
      exact ⟨htexts, (modifierText_eq_iff_perm hdpath hepath).1 hmodifiers⟩

/-- The text that names a declaration determines its property, its values and its conditions up to
their order, as far as the text can be cut in one way only. Parts that are the same for both
declarations may hold anything. -/
theorem canonicalText_eq_iff {d e : Declaration} (hd : ∀ c ∈ d.conditions, c.IsRead)
    (he : ∀ c ∈ e.conditions, c.IsRead) (hdne : d.values ≠ []) (hene : e.values ≠ [])
    (hproperty : d.property.toList <+: e.property.toList ∨
      e.property.toList <+: d.property.toList → d.property = e.property)
    (hvalues : d.values = e.values ∨ SeparateValues d.values e.values)
    (hparts : d.conditions.Perm e.conditions ∨ d.PlainParts e) :
    d.canonicalText = e.canonicalText ↔
      d.property = e.property ∧ d.values = e.values ∧ d.conditions.Perm e.conditions := by
  constructor
  · intro h
    have hsame := property_eq_of_canonicalText_eq hproperty h
    simp only [canonicalText, hsame, String.append_assoc, String.append_right_inj] at h
    obtain ⟨htexts, hperm⟩ := parts_eq_of_append_eq hd he hparts h
    exact ⟨hsame, hvalues.elim id fun hseparate =>
      intercalate_values_inj hdne hene hseparate htexts, hperm⟩
  · rintro ⟨hsame, hlists, hperm⟩
    rw [canonicalText, canonicalText, hsame, hlists, modifierText_eq_of_perm hperm]

end Declaration

end AtomicCss
