import AtomicCss.Proofs.Expansion.Conditions
import AtomicCss.Proofs.Rule
import AtomicCss.Proofs.Sheet

/-!
# Names that stand for rules

A class is named after the contents of its rule, and a sheet keeps one rule for each class. The name
is made from a text in which the property, the values and the sorted conditions follow each other
without marks in between. So the text alone does not tell the rule: parts that are cut in another
place, or selectors that nest in another order, have the same text. It does tell it for declarations
whose properties, values and conditions do not run into each other, and whose selectors nest in the
same order. What two declarations have in common cannot be cut in another place.

* `Declaration.Clash`: declarations with one text of which a sheet keeps only the first.
* `Declaration.clashes`: the ways in which declarations clash.
* `Declaration.rule?_eq_of_canonicalText_eq`: what the text does tell.
-/

namespace AtomicCss.Declaration

/-- Two declarations that expansions give and that are named by one text, though a sheet that has
the rule for the first drops the rule for the second. -/
def Clash (d e : Declaration) : Prop :=
  d.Expanded ∧ e.Expanded ∧ d.canonicalText = e.canonicalText ∧
    ∃ r ∈ d.rule? {}, ∃ s ∈ e.rule? {}, s ∉ (Sheet.ofRules [r, s]).rules

/-- Declarations with one canonical text clash if their rules differ. -/
theorem clash_of_ne {d e : Declaration} (hd : d.Expanded) (he : e.Expanded)
    (h : d.canonicalText = e.canonicalText) (hdset : d.isUnset = false) (heset : e.isUnset = false)
    (hne : ∀ r s, d.rule? {} = some r → e.rule? {} = some s → s ≠ r) : Clash d e := by
  obtain ⟨r, hr⟩ := exists_rule? {} hdset
  obtain ⟨s, hs⟩ := exists_rule? {} heset
  refine ⟨hd, he, h, r, hr, s, hs, ?_⟩
  have hclass : s.className = r.className := by
    rw [(rule?_eq_some hs).1, (rule?_eq_some hr).1]
    simp only [className, h]
    rfl
  have hfirst : r ∈ (Sheet.ofRules [r]).rules := Sheet.mem_ofRules.2 (by simp [firstByClass])
  exact fun hmem => hne r s hr hs ((Sheet.mem_ofRules_concat_iff hfirst hclass).1 hmem)

/-- Where there is one text for both directions, it is enough that the texts of the rules differ. -/
theorem clash_of_ltr_ne {d e : Declaration} (hd : d.Expanded) (he : e.Expanded)
    (h : d.canonicalText = e.canonicalText) (hdset : d.isUnset = false) (heset : e.isUnset = false)
    (hdrtl : d.rtl? {} = none) (hertl : e.rtl? {} = none)
    (hne : ∀ base, (e.ltr {}).ruleText base ≠ (d.ltr {}).ruleText base) : Clash d e := by
  refine clash_of_ne hd he h hdset heset fun r s hr hs hsr => hne ("." ++ d.className {}) ?_
  have hclass : e.className {} = d.className {} := by
    rw [← (rule?_eq_some hs).1, hsr, (rule?_eq_some hr).1]
  rw [← (rule?_eq_some hr).2.2 hdrtl, ← hclass, ← (rule?_eq_some hs).2.2 hertl, hsr]

/-- It is enough that the priorities of the rules differ, too. -/
theorem clash_of_priority_ne {d e : Declaration} (hd : d.Expanded) (he : e.Expanded)
    (h : d.canonicalText = e.canonicalText) (hdset : d.isUnset = false) (heset : e.isUnset = false)
    (hne : Priority.ofDeclaration e.property e.conditions ≠
      Priority.ofDeclaration d.property d.conditions) : Clash d e := by
  refine clash_of_ne hd he h hdset heset fun r s hr hs hsr => hne ?_
  rw [← (rule?_eq_some hs).2.1, hsr, (rule?_eq_some hr).2.1]

/-- A value under conditions that nest in the given order. -/
def nested (keys : List String) (value : StyleValue) : StyleValue :=
  keys.foldr (fun key inner => .conditional [(key, inner)]) value

/-- Declarations clash if a property goes on in its value, if two alternatives are one value, if a
value goes on in a condition, if two pseudo-classes or two pseudo-elements nest the other way, and
if two selectors or two at-rules are one. -/
theorem clashes :
    Clash ⟨"color", ["red"], []⟩ ⟨"col", ["orred"], []⟩ ∧
      Clash ⟨"content", ["\"a\"", "\"b\""], []⟩ ⟨"content", ["\"a\", \"b\""], []⟩ ∧
      Clash ⟨"color", ["red"], [.pseudoClass ":active", .pseudoClass ":focus"]⟩
        ⟨"color", ["red:active"], [.pseudoClass ":focus"]⟩ ∧
      Clash ⟨"color", ["red"], [.pseudoClass ":focus", .pseudoClass ":hover"]⟩
        ⟨"color", ["red"], [.pseudoClass ":hover", .pseudoClass ":focus"]⟩ ∧
      Clash ⟨"color", ["red"], [.pseudoElement "::after", .pseudoElement "::marker"]⟩
        ⟨"color", ["red"], [.pseudoElement "::marker", .pseudoElement "::after"]⟩ ∧
      Clash ⟨"color", ["red"], [.pseudoClass ":hover", .other "[open]"]⟩
        ⟨"color", ["red"], [.pseudoClass ":hover[open]"]⟩ ∧
      Clash ⟨"color", ["red"], [.atRule .media "@media a", .atRule .media "@media b"]⟩
        ⟨"color", ["red"], [.atRule .media "@media a@media b"]⟩ := by
  have hexpanded (options : Options) (entries : List (String × StyleValue)) (d : Declaration)
      (h : d ∈ (expandDefinition options (.ofEntries entries)).declarations) : d.Expanded :=
    ⟨options, .ofEntries entries, h⟩
  refine ⟨?_, ?_, ?_, ?_, ?_, ?_, ?_⟩
  · exact ⟨hexpanded {} [("color", .text "red")] _ (by decide +kernel),
      hexpanded {} [("col", .text "orred")] _ (by decide +kernel), by decide +kernel⟩
  · exact ⟨hexpanded {} [("content", .fallbacks [.text "\"a\"", .text "\"b\""])] _
        (by decide +kernel),
      hexpanded {} [("content", .text "\"a\", \"b\"")] _ (by decide +kernel),
      by decide +kernel⟩
  · refine clash_of_priority_ne
      (hexpanded {} [("color", nested [":active", ":focus"] (.text "red"))] _ (by decide +kernel))
      (hexpanded {} [("color", nested [":focus"] (.text "red:active"))] _ (by decide +kernel))
      ?_ (by decide) (by decide) (by decide +kernel)
    rw [canonicalText, canonicalText,
      modifierText_of_pairwise (by decide) (by decide +kernel) (by decide +kernel),
      modifierText_of_pairwise (by decide) (by decide +kernel) (by decide +kernel)]
    decide +kernel
  · -- The names are left open here: the texts differ whatever the class is called.
    refine clash_of_ltr_ne
      (hexpanded {} [("color", nested [":focus", ":hover"] (.text "red"))] _ (by decide +kernel))
      (hexpanded {} [("color", nested [":hover", ":focus"] (.text "red"))] _ (by decide +kernel))
      (by rw [canonicalText, canonicalText, modifierText_eq_of_perm (.swap _ _ [])]) (by decide)
      (by decide) (by decide +kernel) (by decide +kernel) fun base => ?_
    simp [ruleText, scopedText, wrapAtRules, atRuleTexts, sortTexts, selectors, plainSelector,
      atRuleCount, Condition.isAtRule, Condition.isPseudoElement, Condition.text, block, body, ltr,
      physical]
  · refine clash_of_ltr_ne
      (hexpanded {} [("color", nested ["::after", "::marker"] (.text "red"))] _ (by decide +kernel))
      (hexpanded {} [("color", nested ["::marker", "::after"] (.text "red"))] _ (by decide +kernel))
      (by rw [canonicalText, canonicalText, modifierText_eq_of_perm (.swap _ _ [])]) (by decide)
      (by decide) (by decide +kernel) (by decide +kernel) fun base => ?_
    simp [ruleText, scopedText, wrapAtRules, atRuleTexts, sortTexts, selectors, plainSelector,
      pseudoElementSelectors, atRuleCount, List.filter, String.append_assoc, Condition.isAtRule,
      Condition.isPseudoElement, Condition.text, block, body, ltr, physical]
  · refine clash_of_priority_ne
      (hexpanded {} [("color", nested [":hover", "[open]"] (.text "red"))] _ (by decide +kernel))
      (hexpanded {} [("color", nested [":hover[open]"] (.text "red"))] _ (by decide +kernel))
      (congrArg ("<>colorred" ++ ·) ?_) (by decide) (by decide) (by decide +kernel)
    rw [modifierText_of_pairwise (by decide) (by decide +kernel) (by decide +kernel)]
    decide +kernel
  · refine clash_of_priority_ne
      (hexpanded {} [("color", nested ["@media a", "@media b"] (.text "red"))] _
        (by decide +kernel))
      (hexpanded {} [("color", nested ["@media a@media b"] (.text "red"))] _ (by decide +kernel))
      (congrArg ("<>colorred" ++ ·) ?_) (by decide) (by decide) (by decide +kernel)
    rw [modifierText_of_pairwise (by decide) (by decide +kernel) (by decide +kernel)]
    decide +kernel

/-- Two declarations of which neither property is a proper beginning of the other, whose values are
the same or can be told apart in a row, and whose conditions are the same up to their order or can
be told from the values and from each other: the text that names a declaration tells its property,
its values and, up to their order, its conditions, and with them the class and the priority. If the
selectors nest in the same order, it tells the rule, whatever the order of the at-rules, and a sheet
that drops the second of the two rules still has it. -/
theorem rule?_eq_of_canonicalText_eq {d e : Declaration} (hd : d.Expanded) (he : e.Expanded)
    (hdset : d.isUnset = false) (heset : e.isUnset = false)
    (hproperty : d.property.toList <+: e.property.toList ∨
      e.property.toList <+: d.property.toList → d.property = e.property)
    (hvalues : d.values = e.values ∨ SeparateValues d.values e.values)
    (hparts : d.conditions.Perm e.conditions ∨ d.PlainParts e) :
    (d.canonicalText = e.canonicalText ↔
      d.property = e.property ∧ d.values = e.values ∧ d.conditions.Perm e.conditions) ∧
      (d.canonicalText = e.canonicalText →
        (∀ options, d.className options = e.className options) ∧
        Priority.ofDeclaration d.property d.conditions =
          Priority.ofDeclaration e.property e.conditions) ∧
      (d.canonicalText = e.canonicalText →
        d.conditions.filter Condition.isPlainSelector =
          e.conditions.filter Condition.isPlainSelector →
        d.conditions.filter Condition.isPseudoElement =
          e.conditions.filter Condition.isPseudoElement →
        ∀ options, ∃ r s, d.rule? options = some r ∧ e.rule? options = some s ∧ r = s ∧
          ∀ rules, r ∈ (Sheet.ofRules rules).rules →
            s ∈ (Sheet.ofRules (rules ++ [s])).rules) := by
  have hdne : d.values ≠ [] := by simpa [isUnset] using hdset
  have hene : e.values ≠ [] := by simpa [isUnset] using heset
  have hiff := canonicalText_eq_iff hd.isRead he.isRead hdne hene hproperty hvalues hparts
  refine ⟨hiff, fun h => ⟨fun options => ?_, ?_⟩, fun h hselectors helements options => ?_⟩
  · simp only [className, h, (hiff.1 h).1]
  · rw [(hiff.1 h).1]
    exact Priority.ofDeclaration_eq_of_perm e.property (hiff.1 h).2.2
  · obtain ⟨hproperty, hsame, hperm⟩ := hiff.1 h
    -- The at-rules are sorted in a rule, so that their order does not show.
    have hnesting : SameNesting d.conditions e.conditions :=
      ⟨hselectors, helements, hperm.filter _⟩
    have he_with : { d with conditions := e.conditions } = e := by
      cases d
      cases e
      simp_all
    have hrule : d.rule? options = e.rule? options := by
      rw [← rule?_with options hnesting, he_with]
    obtain ⟨r, hr⟩ := exists_rule? options hdset
    refine ⟨r, r, hr, hrule ▸ hr, rfl, fun rules hkept => ?_⟩
    exact (Sheet.mem_ofRules_concat_iff hkept rfl).2 rfl

/-- Two values, under a pseudo-class within an at-rule and under the at-rule within the
pseudo-class, have one rule. The same value under different conditions has two texts. Under a
selector of any kind two properties of which neither begins with the other have two texts. -/
theorem rule?_eq_of_canonicalText_eq_print :
    let print : Condition := .atRule .media "@media print"
    let idle : Condition := .pseudoClass ":not(:hover)"
    let opened : Condition := .other "[open]"
    let values : List String := ["red", "rgb(0,0,0)"]
    let d : Declaration := ⟨"color", values, [print, idle]⟩
    let e : Declaration := ⟨"color", values, [idle, print]⟩
    let f : Declaration := ⟨"color", ["red"], [idle]⟩
    let g : Declaration := ⟨"width", ["\"a, b\""], [opened]⟩
    let k : Declaration := ⟨"color", ["red"], [opened]⟩
    d.Expanded ∧ e.Expanded ∧ f.Expanded ∧ g.Expanded ∧ k.Expanded ∧
      d.canonicalText = e.canonicalText ∧
      (∀ options, ∃ r, d.rule? options = some r ∧ e.rule? options = some r) ∧
      d.canonicalText ≠ f.canonicalText ∧ g.canonicalText ≠ k.canonicalText := by
  intro print idle opened values d e f g k
  have hd : d.Expanded := ⟨{}, .ofEntries [("color", nested ["@media print", ":not(:hover)"]
    (.fallbacks [.text "red", .text "rgb(0, 0, 0)"]))], by decide +kernel⟩
  have he : e.Expanded := ⟨{}, .ofEntries [("color", nested [":not(:hover)", "@media print"]
    (.fallbacks [.text "red", .text "rgb(0, 0, 0)"]))], by decide +kernel⟩
  have hf : f.Expanded := ⟨{}, .ofEntries [("color", nested [":not(:hover)"] (.text "red"))],
    by decide +kernel⟩
  have hg : g.Expanded := ⟨{}, .ofEntries [("width", nested ["[open]"] (.text "\"a, b\""))],
    by decide +kernel⟩
  have hk : k.Expanded := ⟨{}, .ofEntries [("color", nested ["[open]"] (.text "red"))],
    by decide +kernel⟩
  obtain ⟨hiff, -, hrule⟩ := rule?_eq_of_canonicalText_eq hd he rfl rfl (fun _ => rfl) (.inl rfl)
    (.inl (.swap _ _ []))
  have htext : d.canonicalText = e.canonicalText := hiff.2 ⟨rfl, rfl, .swap _ _ []⟩
  refine ⟨hd, he, hf, hg, hk, htext, fun options => ?_, fun h => ?_, fun h => ?_⟩
  · obtain ⟨r, s, hr, hs, rfl, -⟩ := hrule htext rfl rfl options
    exact ⟨r, hr, hs⟩
  · have hparts : d.PlainParts f := by decide +kernel
    have hvalues : SeparateValues d.values f.values := by decide +kernel
    have hsame := ((rule?_eq_of_canonicalText_eq hd hf rfl rfl (fun _ => rfl) (.inr hvalues)
      (.inr hparts)).1.1 h).2.1
    exact absurd hsame (by decide)
  · have hsame := ((rule?_eq_of_canonicalText_eq hg hk rfl rfl (by decide +kernel)
      (.inr (.inl ⟨rfl, rfl⟩)) (.inl (.refl _))).1.1 h).1
    exact absurd hsame (by decide)

end AtomicCss.Declaration
