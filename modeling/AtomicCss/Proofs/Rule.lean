import AtomicCss.Proofs.Naming
import AtomicCss.Rule

/-!
# What a rule depends on

The rule for a declaration depends on its property, on its values, on its selectors in the order in
which they nest, and on its at-rules in any order.

* `SameNesting`: paths that give the same rules.
* `Declaration.rule?_with`: conditions that nest alike give the same rule.
* `Declaration.rule?_eq_of_atRules_perm`: where at-rules stand among the conditions makes no
  difference.
-/

namespace AtomicCss

variable {p q : List Condition}

/-- Whether the condition stands in a selector in front of the pseudo-elements. -/
def Condition.isPlainSelector (c : Condition) : Bool :=
  !c.isAtRule && !c.isPseudoElement

/-- Paths with the same selectors and the same pseudo-elements in order, and the same at-rules in
any order. -/
structure SameNesting (p q : List Condition) : Prop where
  selectors : p.filter Condition.isPlainSelector = q.filter Condition.isPlainSelector
  pseudoElements : p.filter Condition.isPseudoElement = q.filter Condition.isPseudoElement
  atRules : (p.filter Condition.isAtRule).Perm (q.filter Condition.isAtRule)

/-- A path is made of its at-rules, its pseudo-elements and its other selectors. -/
theorem perm_parts (p : List Condition) :
    (p.filter Condition.isAtRule ++ (p.filter Condition.isPseudoElement ++
      p.filter Condition.isPlainSelector)).Perm p := by
  have hselectors : p.filter Condition.isPseudoElement ++ p.filter Condition.isPlainSelector =
      (p.filter (!·.isAtRule)).filter Condition.isPseudoElement ++
        (p.filter (!·.isAtRule)).filter (!·.isPseudoElement) := by
    rw [List.filter_filter, List.filter_filter]
    congr 1
    · refine List.filter_congr fun c _ => ?_
      cases c <;> rfl
    · refine List.filter_congr fun c _ => ?_
      cases c <;> rfl
  rw [hselectors]
  exact ((List.filter_append_perm _ _).append_left _).trans (List.filter_append_perm _ p)

/-- Conditions nested alike are the same up to their order. -/
theorem SameNesting.perm (h : SameNesting p q) : p.Perm q := by
  refine (perm_parts p).symm.trans (List.Perm.trans ?_ (perm_parts q))
  rw [h.selectors, h.pseudoElements]
  exact h.atRules.append_right _

/-- Among selectors in the same order, at-rules may stand anywhere. -/
theorem sameNesting_of_selectors (hselectors : p.filter (!·.isAtRule) = q.filter (!·.isAtRule))
    (hatRules : (p.filter Condition.isAtRule).Perm (q.filter Condition.isAtRule)) :
    SameNesting p q := by
  -- Pseudo-elements and plain selectors are found among what is no at-rule.
  have hamong : ∀ {kind : Condition → Bool}, (∀ c, kind c = (kind c && !c.isAtRule)) →
      p.filter kind = q.filter kind := by
    intro kind hkind
    rw [funext hkind, ← List.filter_filter, ← List.filter_filter, hselectors]
  refine ⟨hamong fun c => ?_, hamong fun c => ?_, hatRules⟩
  · cases c <;> rfl
  · cases c <;> rfl

/-! ### Priorities -/

/-- A score does not depend on the order of the conditions. -/
theorem Condition.score_eq_of_perm (h : p.Perm q) : score p = score q := by
  have htotal : ∀ keep : Condition → Bool,
      totalWeight (p.filter keep) = totalWeight (q.filter keep) := by
    intro keep
    rw [totalWeight, totalWeight, ← List.sum_eq_foldr, ← List.sum_eq_foldr]
    exact ((h.filter keep).map weight).sum_nat
  simp only [score, htotal]

/-- The order of conditions does not change the priority. -/
theorem Priority.ofDeclaration_eq_of_perm (property : String) (h : p.Perm q) :
    ofDeclaration property p = ofDeclaration property q := by
  rw [ofDeclaration, ofDeclaration, Condition.score_eq_of_perm h]

/-! ### Texts -/

/-- Conditions nested alike give one selector. -/
theorem selectors_eq (h : SameNesting p q) (base : String) :
    selectors base p = selectors base q := by
  have hcount : atRuleCount p = atRuleCount q := h.perm.countP_eq _
  have hplain : plainSelector base p = plainSelector base q := by
    have hselectors := h.selectors
    unfold Condition.isPlainSelector at hselectors
    simp only [plainSelector, hcount, hselectors]
  simp only [selectors, hplain, h.pseudoElements]

/-- Conditions nested alike wrap a rule in the same at-rules. -/
theorem wrapAtRules_eq (h : SameNesting p q) (rule : String) :
    wrapAtRules rule p = wrapAtRules rule q := by
  rw [wrapAtRules, wrapAtRules, atRuleTexts_eq_of_perm h.atRules]

namespace Declaration

/-- The order of conditions does not change the text that names a declaration. -/
theorem canonicalText_with {d : Declaration} (h : d.conditions.Perm q) :
    { d with conditions := q }.canonicalText = d.canonicalText := by
  simp only [canonicalText, modifierText_eq_of_perm h]

/-- Conditions nested alike give one text of the rule. -/
theorem scopedText_with {d : Declaration} (h : SameNesting d.conditions q)
    (scope : String → String) (base : String) :
    { d with conditions := q }.scopedText scope base = d.scopedText scope base := by
  simp only [scopedText, body, selectors_eq h, wrapAtRules_eq h]

/-- Whether the two directions differ does not depend on the conditions. -/
theorem rtl?_with (options : Options) (d : Declaration) (q : List Condition) :
    { d with conditions := q }.rtl? options =
      (d.rtl? options).map fun rtl => { rtl with conditions := q } := by
  -- Both sides of the comparison carry the conditions along.
  have hiff : { d with conditions := q }.physical options .rtl =
        { d with conditions := q }.ltr options ↔ d.physical options .rtl = d.ltr options := by
    simp [physical, ltr]
  by_cases hsame : d.physical options .rtl = d.ltr options
  · rw [rtl?, if_pos (hiff.2 hsame), rtl?, if_pos hsame]
    rfl
  · rw [rtl?, if_neg (mt hiff.1 hsame), rtl?, if_neg hsame]
    rfl

/-- The right-to-left form of a declaration has the same conditions. -/
theorem conditions_of_rtl? {options : Options} {d rtl : Declaration}
    (h : d.rtl? options = some rtl) : rtl.conditions = d.conditions := by
  unfold rtl? at h
  split at h
  · cases h
  · cases h
    rfl

/-- Conditions that nest alike give the same rule. -/
theorem rule?_with (options : Options) {d : Declaration} (h : SameNesting d.conditions q) :
    { d with conditions := q }.rule? options = d.rule? options := by
  have hunset : { d with conditions := q }.isUnset = d.isUnset := rfl
  have hname : { d with conditions := q }.className options = d.className options := by
    simp only [className, canonicalText_with h.perm]
  have hpriority := Priority.ofDeclaration_eq_of_perm d.property h.perm.symm
  have hltr : ∀ scope base, ({ d with conditions := q }.ltr options).scopedText scope base =
      (d.ltr options).scopedText scope base :=
    fun scope base => scopedText_with (d := d.ltr options) h scope base
  unfold rule?
  rw [rtl?_with]
  cases hrtl : d.rtl? options with
  | none => simp only [hunset, hname, hpriority, ruleText, hltr, Option.map_none]
  | some rtl =>
    have hrtlText := scopedText_with (d := rtl) (q := q) (by rwa [conditions_of_rtl? hrtl])
    simp only [hunset, hname, hpriority, hltr, hrtlText, Option.map_some]

/-! ### The parts of a rule -/

/-- Every declaration that sets a value has a rule. -/
theorem exists_rule? (options : Options) {d : Declaration} (h : d.isUnset = false) :
    ∃ r, d.rule? options = some r := by
  simp only [rule?, h]
  cases d.rtl? options with
  | none => exact ⟨_, rfl⟩
  | some rtl => exact ⟨_, rfl⟩

/-- The class name, the priority and, where there is one text for both directions, the text of a
rule. -/
theorem rule?_eq_some {options : Options} {d : Declaration} {r : Rule}
    (h : d.rule? options = some r) :
    r.className = d.className options ∧
      r.priority = Priority.ofDeclaration d.property d.conditions ∧
      (d.rtl? options = none → r.ltr = (d.ltr options).ruleText ("." ++ d.className options)) := by
  unfold rule? at h
  split at h
  · cases h
  · cases hrtl : d.rtl? options with
    | none =>
      simp only [hrtl, Option.some.injEq] at h
      subst h
      exact ⟨rfl, rfl, fun _ => rfl⟩
    | some rtl =>
      simp only [hrtl, Option.some.injEq] at h
      subst h
      exact ⟨rfl, rfl, nofun⟩

/-! ### At-rules among selectors -/

/-- Two declarations of the same values of a property have the same rule if they have the same
selectors in the same order and the same at-rules, wherever these stand. -/
theorem rule?_eq_of_atRules_perm (options : Options) {d e : Declaration}
    (hproperty : d.property = e.property) (hvalues : d.values = e.values)
    (hselectors : d.conditions.filter (!·.isAtRule) = e.conditions.filter (!·.isAtRule))
    (hatRules : (d.conditions.filter Condition.isAtRule).Perm
      (e.conditions.filter Condition.isAtRule)) :
    d.rule? options = e.rule? options := by
  have hwith : { d with conditions := e.conditions } = e := by
    cases d
    cases e
    simp_all
  rw [← rule?_with options (sameNesting_of_selectors hselectors hatRules), hwith]

/-- A repeated at-rule and another one, outermost and between the selectors. -/
theorem rule?_eq_of_atRules_perm_nested :
    let print : Condition := .atRule .media "@media print"
    let grid : Condition := .atRule .supports "@supports (display: grid)"
    let hover : Condition := .pseudoClass ":hover"
    let thumb : Condition := .pseudoElement "::thumb"
    let d : Declaration := ⟨"margin-start", ["1px"], [print, grid, print, hover, thumb]⟩
    let e : Declaration := ⟨"margin-start", ["1px"], [hover, print, print, thumb, grid]⟩
    ∀ options, ∃ r, d.rule? options = some r ∧ e.rule? options = some r := by
  intro print grid hover thumb d e options
  obtain ⟨r, hr⟩ := exists_rule? options (d := d) rfl
  have hsame : d.rule? options = e.rule? options :=
    rule?_eq_of_atRules_perm options rfl rfl (by decide) (by decide)
  exact ⟨r, hr, hsame ▸ hr⟩

end Declaration

end AtomicCss
