import AtomicCss.Proofs.Keyed
import AtomicCss.Proofs.Rule

/-!
# How priorities order paths

A priority is ten times the score of the path, plus ten, plus the rank of the property. The rank is
at most two, so the score decides first and can be read off a priority again. Every condition adds
to the score what it counts for, but the selectors together stop at their limit, below what a single
at-rule counts for. There is no such limit between pseudo-classes and pseudo-elements: enough
pseudo-classes on one path count for as much as a pseudo-element.

* `Condition.weight_bounds`, `Condition.weight_le_of_isPlainSelector`: what a condition may count
  for.
* `Condition.score_cons`: what one more condition adds to the score.
* `Priority.toNat_ofDeclaration`, `Priority.layer_ofDeclaration`: a priority in terms of the score,
  as long as nothing is cut off.
* `Priority.ofDeclaration_orders_paths`: the order of priorities.
* `Priority.outranked_iff`: when pseudo-elements come after a path of pseudo-classes.
-/

namespace AtomicCss

namespace Condition

variable {c : Condition} {path : List Condition}

/-! ### What a condition counts for -/

/-- What the heaviest pseudo-class counts for. -/
def pseudoClassLimit : Nat := 170

/-- The table gives no pseudo-class less than an unknown selector. -/
theorem tableWeight?_bounds {w : Nat} (h : c.tableWeight? = some w) :
    genericWeight ≤ w ∧ w ≤ pseudoClassLimit := by
  have hall : pseudoClassWeights.all
      (fun entry => genericWeight ≤ entry.2 ∧ entry.2 ≤ pseudoClassLimit) = true := by
    decide
  cases c with
  | pseudoClass text =>
    rw [tableWeight?] at h
    obtain ⟨name, -, hget⟩ := Option.bind_eq_some_iff.1 h
    simpa using List.all_eq_true.1 hall _ (Keyed.mem_of_get?_eq_some hget)
  | _ => cases h

/-- No selector that is no pseudo-element weighs more than the limit for pseudo-classes. -/
theorem weight_le_of_isPlainSelector (h : c.isPlainSelector = true) :
    c.weight ≤ pseudoClassLimit := by
  cases c with
  | pseudoClass text =>
    show ((pseudoClass text).tableWeight?.getD genericWeight) ≤ pseudoClassLimit
    cases htable : (pseudoClass text).tableWeight? with
    | none => decide
    | some w => exact (tableWeight?_bounds htable).2
  | other text =>
    show genericWeight ≤ pseudoClassLimit
    decide
  | _ => cases h

/-- What the heaviest at-rule counts for. -/
def atRuleLimit : Nat := 30000

/-- Every condition counts, and an at-rule for more than all selectors together. -/
theorem weight_bounds (c : Condition) :
    genericWeight ≤ c.weight ∧ c.weight ≤ atRuleLimit ∧
      (c.isAtRule = true → selectorLimit < c.weight) := by
  cases c with
  | pseudoClass text =>
    refine ⟨?_, ?_, nofun⟩
    · show genericWeight ≤ (pseudoClass text).tableWeight?.getD genericWeight
      cases htable : (pseudoClass text).tableWeight? with
      | none => exact Nat.le_refl _
      | some w => exact (tableWeight?_bounds htable).1
    · exact Nat.le_trans (weight_le_of_isPlainSelector rfl) (by decide)
  | pseudoElement text =>
    have hbounds : genericWeight ≤ pseudoElementWeight ∧ pseudoElementWeight ≤ atRuleLimit := by
      decide
    exact ⟨hbounds.1, hbounds.2, nofun⟩
  | atRule kind text =>
    have hbounds : genericWeight ≤ atRuleWeight kind ∧ atRuleWeight kind ≤ atRuleLimit ∧
        selectorLimit < atRuleWeight kind := by
      cases kind <;> decide
    exact ⟨hbounds.1, hbounds.2.1, fun _ => hbounds.2.2⟩
  | other text =>
    have hbound : genericWeight ≤ atRuleLimit := by decide
    exact ⟨Nat.le_refl _, hbound, nofun⟩

/-! ### Scores -/

/-- What the selectors of a path count for without a limit. -/
def selectorWeight (path : List Condition) : Nat :=
  totalWeight (path.filter (!·.isAtRule))

/-- What the at-rules of a path count for. -/
def atRulesWeight (path : List Condition) : Nat :=
  totalWeight (path.filter isAtRule)

theorem score_eq (path : List Condition) :
    score path = min (selectorWeight path) selectorLimit + atRulesWeight path := rfl

@[simp] theorem totalWeight_nil : totalWeight [] = 0 := rfl

@[simp] theorem totalWeight_cons (c : Condition) (path : List Condition) :
    totalWeight (c :: path) = c.weight + totalWeight path := rfl

/-- A bound on each condition is one on a path, condition by condition. -/
theorem totalWeight_le {limit : Nat} (h : ∀ c ∈ path, c.weight ≤ limit) :
    totalWeight path ≤ limit * path.length := by
  induction path with
  | nil => exact Nat.zero_le _
  | cons c path ih =>
    have hc := h c List.mem_cons_self
    have hpath := ih fun d hd => h d (List.mem_cons_of_mem _ hd)
    rw [totalWeight_cons, List.length_cons, Nat.mul_succ]
    omega

/-- One more condition adds what it counts for, within the limit for selectors. -/
theorem score_cons (c : Condition) (path : List Condition) :
    score (c :: path) =
      if c.isAtRule then score path + c.weight
      else min (selectorWeight path + c.weight) selectorLimit + atRulesWeight path := by
  cases hc : c.isAtRule with
  | true =>
    simp only [score_eq, selectorWeight, atRulesWeight, List.filter_cons, hc, Bool.not_true,
      Bool.false_eq_true, if_false, if_true, totalWeight_cons]
    omega
  | false =>
    simp only [score_eq, selectorWeight, atRulesWeight, List.filter_cons, hc, Bool.not_false,
      Bool.false_eq_true, if_false, if_true, totalWeight_cons, Nat.add_comm c.weight]

/-- A further condition never lowers the score. -/
theorem score_le_score_cons (c : Condition) (path : List Condition) :
    score path ≤ score (c :: path) := by
  rw [score_cons, score_eq]
  split
  · exact Nat.le_add_right _ _
  · omega

/-- All selectors together count up to a limit, and each at-rule up to a limit of its own. -/
theorem score_le (path : List Condition) :
    score path ≤ selectorLimit + atRuleLimit * path.length := by
  have hatRules : atRulesWeight path ≤ atRuleLimit * path.length :=
    Nat.le_trans (totalWeight_le fun c _ => (weight_bounds c).2.1)
      (Nat.mul_le_mul_left _ (List.length_filter_le _ _))
  rw [score_eq]
  omega

/-- The score of a path without at-rules. -/
theorem score_of_selectors (h : ∀ c ∈ path, c.isAtRule = false) :
    score path = min (totalWeight path) selectorLimit := by
  have hselectors : path.filter (!·.isAtRule) = path :=
    List.filter_eq_self.2 fun c hc => by simp [h c hc]
  have hatRules : path.filter isAtRule = [] :=
    List.filter_eq_nil_iff.2 fun c hc => by simp [h c hc]
  rw [score, hselectors, hatRules]
  rfl

/-- A condition anywhere on a path counts as if it were the outermost. -/
theorem score_insert (before after : List Condition) (c : Condition) :
    score (before ++ c :: after) = score (c :: (before ++ after)) :=
  score_eq_of_perm List.perm_middle

theorem weight_le_totalWeight (h : c ∈ path) : c.weight ≤ totalWeight path := by
  induction path with
  | nil => cases h
  | cons d path ih =>
    rw [totalWeight_cons]
    rcases List.mem_cons.1 h with rfl | hmem
    · exact Nat.le_add_right _ _
    · exact Nat.le_trans (ih hmem) (Nat.le_add_left _ _)

/-- Scores beyond the limit for selectors are those of paths with an at-rule. -/
theorem selectorLimit_lt_score_iff :
    selectorLimit < score path ↔ ∃ c ∈ path, c.isAtRule = true := by
  constructor
  · intro hlt
    by_cases hsome : ∃ c ∈ path, c.isAtRule = true
    · exact hsome
    · have hselectors : ∀ c ∈ path, c.isAtRule = false := by simpa using hsome
      rw [score_of_selectors hselectors] at hlt
      omega
  · rintro ⟨c, hc, hat⟩
    have hlt := (weight_bounds c).2.2 hat
    have hle : c.weight ≤ atRulesWeight path :=
      weight_le_totalWeight (List.mem_filter.2 ⟨hc, hat⟩)
    rw [score_eq]
    omega

/-- Only the empty path scores less than an unknown selector. -/
theorem score_lt_genericWeight_iff : score path < genericWeight ↔ path = [] := by
  constructor
  · intro hlt
    cases path with
    | nil => rfl
    | cons c path =>
      have hgeneric := (weight_bounds c).1
      have hlimit : genericWeight ≤ selectorLimit := by decide
      rw [score_cons] at hlt
      split at hlt <;> omega
  · rintro rfl
    decide

end Condition

open Condition

/-! ### Layers -/

namespace Layer

variable {score : Nat}

/-- The range of scores of each layer. -/
theorem ofScore_cases (score : Nat) :
    (ofScore score = .base ∧ score < genericWeight) ∨
    (ofScore score = .pseudoClass ∧ genericWeight ≤ score ∧ score < pseudoElementWeight) ∨
    (ofScore score = .pseudoElement ∧ pseudoElementWeight ≤ score ∧ score ≤ selectorLimit) ∨
    (ofScore score = .atRule ∧ selectorLimit < score) := by
  by_cases hgeneric : score < genericWeight
  · exact .inl ⟨if_pos hgeneric, hgeneric⟩
  rw [ofScore, if_neg hgeneric]
  by_cases helement : score < pseudoElementWeight
  · exact .inr (.inl ⟨if_pos helement, Nat.le_of_not_lt hgeneric, helement⟩)
  rw [if_neg helement]
  by_cases hlimit : score ≤ selectorLimit
  · exact .inr (.inr (.inl ⟨if_pos hlimit, Nat.le_of_not_lt helement, hlimit⟩))
  · exact .inr (.inr (.inr ⟨if_neg hlimit, Nat.lt_of_not_le hlimit⟩))

theorem borders : genericWeight ≤ pseudoElementWeight ∧ pseudoElementWeight ≤ selectorLimit := by
  decide

/-- The lowest layer is that of scores below the weight of a generic condition. -/
theorem ofScore_eq_base_iff : ofScore score = .base ↔ score < genericWeight := by
  have hborders := borders
  rcases ofScore_cases score with ⟨h, hs⟩ | ⟨h, hs⟩ | ⟨h, hs⟩ | ⟨h, hs⟩
  all_goals
    rw [h]
    simp
    omega

/-- The highest layer is that of scores above the limit for selectors. -/
theorem ofScore_eq_atRule_iff : ofScore score = .atRule ↔ selectorLimit < score := by
  have hborders := borders
  rcases ofScore_cases score with ⟨h, hs⟩ | ⟨h, hs⟩ | ⟨h, hs⟩ | ⟨h, hs⟩
  all_goals
    rw [h]
    simp
    omega

/-- The layers that come before that of pseudo-elements. -/
theorem ofScore_lt_pseudoElement_iff :
    (ofScore score = .base ∨ ofScore score = .pseudoClass) ↔ score < pseudoElementWeight := by
  have hborders := borders
  rcases ofScore_cases score with ⟨h, hs⟩ | ⟨h, hs⟩ | ⟨h, hs⟩ | ⟨h, hs⟩
  all_goals
    rw [h]
    simp
    omega

end Layer

/-! ### Priorities -/

theorem Property.rank_le (property : String) : Property.rank property ≤ 2 := by
  unfold Property.rank
  split
  · exact Nat.zero_le 2
  · split <;> decide

namespace Priority

variable {p q : String} {a b path : List Condition}

/-- Nothing is cut off a priority, as long as the path has no more than 14000 conditions. -/
theorem toNat_ofDeclaration (p : String) (h : path.length ≤ 14000) :
    (ofDeclaration p path).value.toNat = 10 + 10 * score path + Property.rank p := by
  have hscore := score_le path
  have hrank := Property.rank_le p
  have hlimits : selectorLimit = 9999 ∧ atRuleLimit = 30000 := ⟨rfl, rfl⟩
  show (10 + 10 * score path + Property.rank p).toUInt32.toNat = _
  rw [Nat.toUInt32_eq, UInt32.toNat_ofNat', Nat.mod_eq_of_lt]
  rw [hlimits.1, hlimits.2] at hscore
  omega

/-- The layer of a declaration is that of its score, as long as the priority fits its word. -/
theorem layer_ofDeclaration (p : String) (h : path.length ≤ 14000) :
    (ofDeclaration p path).layer = .ofScore (score path) := by
  have hrank := Property.rank_le p
  have hscore : (10 + 10 * score path + Property.rank p - 10) / 10 = score path := by omega
  rw [layer, toNat_ofDeclaration p h, hscore]

/-- The score decides, and the rank only between paths of one score. -/
theorem ofDeclaration_lt_of_score_lt (p q : String) (ha : a.length ≤ 14000)
    (hb : b.length ≤ 14000) (h : score b < score a) :
    (ofDeclaration q b).value < (ofDeclaration p a).value := by
  have hrank := Property.rank_le q
  rw [UInt32.lt_iff_toNat_lt, toNat_ofDeclaration p ha, toNat_ofDeclaration q hb]
  omega

/-- A further condition anywhere on a path raises its priority by what the condition adds to the
score. -/
theorem ofDeclaration_insert (p : String) (before after : List Condition) (c : Condition)
    (h : (before ++ after).length < 14000) :
    (ofDeclaration p (before ++ c :: after)).value.toNat + 10 * score (before ++ after) =
      (ofDeclaration p (before ++ after)).value.toNat + 10 * score (c :: (before ++ after)) := by
  have hinserted : (before ++ c :: after).length ≤ 14000 := by
    simp only [List.length_append, List.length_cons] at h ⊢
    omega
  rw [toNat_ofDeclaration p hinserted, toNat_ofDeclaration p (Nat.le_of_lt h), score_insert]
  omega

/-- The order of priorities on paths of at most 10000 conditions, where nothing is cut off: the
order of the conditions does not count; a further condition anywhere does not lower the priority,
and an at-rule raises it by 100000 at least; a path with an at-rule comes after every path without
one, whatever the properties; the layer shows whether there is an at-rule, and whether there is any
condition; and on one path the ranks of the properties decide. -/
theorem ofDeclaration_orders_paths (ha : a.length ≤ 10000) (hb : b.length ≤ 10000) :
    (ofDeclaration p a).value.toNat = 10 + 10 * score a + Property.rank p ∧
    (∀ others, a.Perm others → ofDeclaration p others = ofDeclaration p a) ∧
    (∀ before after c, a = before ++ after →
      (ofDeclaration p a).value ≤ (ofDeclaration p (before ++ c :: after)).value ∧
      (c.isAtRule = true → (ofDeclaration p a).value.toNat + 100000 ≤
        (ofDeclaration p (before ++ c :: after)).value.toNat)) ∧
    ((∃ c ∈ a, c.isAtRule = true) → (∀ c ∈ b, c.isAtRule = false) →
      (ofDeclaration q b).value < (ofDeclaration p a).value) ∧
    ((ofDeclaration p a).layer = .atRule ↔ ∃ c ∈ a, c.isAtRule = true) ∧
    ((ofDeclaration p a).layer = .base ↔ a = []) ∧
    ((ofDeclaration p a).value ≤ (ofDeclaration q a).value ↔
      Property.rank p ≤ Property.rank q) := by
  have ha' : a.length ≤ 14000 := Nat.le_trans ha (by decide)
  have hb' : b.length ≤ 14000 := Nat.le_trans hb (by decide)
  refine ⟨toNat_ofDeclaration p ha', fun others hperm => ofDeclaration_eq_of_perm p hperm.symm,
    ?_, ?_, ?_, ?_, ?_⟩
  · rintro before after c rfl
    have hinsert := ofDeclaration_insert p before after c (by omega)
    constructor
    · have hscore := score_le_score_cons c (before ++ after)
      rw [UInt32.le_iff_toNat_le]
      omega
    · intro hat
      -- An at-rule counts in full, beside whatever the selectors count for.
      have hweight := (weight_bounds c).2.2 hat
      have hlimit : selectorLimit = 9999 := rfl
      rw [score_cons, if_pos hat] at hinsert
      omega
  · intro hsome hnone
    -- Without at-rules the score stays within the limit, and any at-rule exceeds it.
    have hb : score b ≤ selectorLimit := by
      rw [score_of_selectors hnone]
      exact Nat.min_le_right _ _
    exact ofDeclaration_lt_of_score_lt p q ha' hb'
      (Nat.lt_of_le_of_lt hb (selectorLimit_lt_score_iff.2 hsome))
  · rw [layer_ofDeclaration p ha', Layer.ofScore_eq_atRule_iff, selectorLimit_lt_score_iff]
  · rw [layer_ofDeclaration p ha', Layer.ofScore_eq_base_iff, score_lt_genericWeight_iff]
  · rw [UInt32.le_iff_toNat_le, toNat_ofDeclaration p ha', toNat_ofDeclaration q ha']
    omega

/-- Selectors at their limit come before a shorthand under a single media query. -/
theorem ofDeclaration_orders_paths_print :
    let a : List Condition := [.pseudoClass ":hover", .atRule .media "@media print"]
    let b : List Condition := List.replicate 3 (.pseudoElement "::after")
    (ofDeclaration "all" a).value.toNat = 201310 ∧
      ofDeclaration "all" a.reverse = ofDeclaration "all" a ∧
      (ofDeclaration "color" b).value < (ofDeclaration "all" a).value ∧
      (ofDeclaration "all" a).layer = .atRule ∧ (ofDeclaration "all" a).layer ≠ .base ∧
      (ofDeclaration "all" a).value ≤ (ofDeclaration "color" a).value := by
  intro a b
  obtain ⟨hvalue, hperm, -, hlt, hatRule, hbase, hrank⟩ :=
    ofDeclaration_orders_paths (p := "all") (q := "color") (a := a) (b := b) (by decide) (by decide)
  refine ⟨hvalue.trans (by decide), hperm _ a.reverse_perm.symm, hlt (by decide) (by decide),
    hatRule.2 (by decide), fun h => absurd (hbase.1 h) (by decide), hrank.2 (by decide)⟩

/-! ### Pseudo-elements and stacks of pseudo-classes -/

theorem isAtRule_of_isPlainSelector {c : Condition} (h : c.isPlainSelector = true) :
    c.isAtRule = false := by
  cases c with
  | atRule => cases h
  | _ => rfl

/-- A path with a pseudo-element and no at-rule scores at least what a pseudo-element counts for. -/
theorem pseudoElementWeight_le_score (hsome : ∃ c ∈ a, c.isPseudoElement = true)
    (hnone : ∀ c ∈ a, c.isAtRule = false) : pseudoElementWeight ≤ score a := by
  obtain ⟨c, hc, hpseudo⟩ := hsome
  have hweight : c.weight = pseudoElementWeight := by
    cases c with
    | pseudoElement => rfl
    | _ => cases hpseudo
  have hle := weight_le_totalWeight hc
  have hlimit : pseudoElementWeight ≤ selectorLimit := by decide
  rw [score_of_selectors hnone]
  omega

/-- Pseudo-classes and other selectors have no limit below that of pseudo-elements. A path of such
selectors comes before every path with a pseudo-element and no at-rule, and stays out of the layer
of pseudo-elements, exactly if together they count for less than one pseudo-element. Up to 29 of
them always do. -/
theorem outranked_iff (hb : b.length ≤ 10000) (hplain : ∀ c ∈ b, c.isPlainSelector = true) :
    ((∀ p a, a.length ≤ 10000 → (∃ c ∈ a, c.isPseudoElement = true) →
        (∀ c ∈ a, c.isAtRule = false) → (ofDeclaration q b).value < (ofDeclaration p a).value) ↔
      totalWeight b < pseudoElementWeight) ∧
    (((ofDeclaration q b).layer = .base ∨ (ofDeclaration q b).layer = .pseudoClass) ↔
      totalWeight b < pseudoElementWeight) ∧
    (b.length ≤ 29 → totalWeight b < pseudoElementWeight) := by
  have hb' : b.length ≤ 14000 := Nat.le_trans hb (by decide)
  have hscore : score b = min (totalWeight b) selectorLimit :=
    score_of_selectors fun c hc => isAtRule_of_isPlainSelector (hplain c hc)
  have hlimit : pseudoElementWeight ≤ selectorLimit := by decide
  refine ⟨⟨?_, ?_⟩, ?_, ?_⟩
  · -- A single pseudo-element on a property of the lowest rank has the lowest priority.
    intro h
    have hlt := h "all" [.pseudoElement "::before"] (by decide) (by decide) (by decide)
    have hbefore : (ofDeclaration "all" [.pseudoElement "::before"]).value.toNat =
        10 + 10 * pseudoElementWeight := by
      decide
    rw [UInt32.lt_iff_toNat_lt, toNat_ofDeclaration q hb', hbefore] at hlt
    omega
  · intro hlt p a ha hsome hnone
    refine ofDeclaration_lt_of_score_lt p q (Nat.le_trans ha (by decide)) hb' ?_
    have hle := pseudoElementWeight_le_score hsome hnone
    omega
  · rw [layer_ofDeclaration q hb', Layer.ofScore_lt_pseudoElement_iff]
    omega
  · intro hlength
    have hle := totalWeight_le fun c hc => weight_le_of_isPlainSelector (hplain c hc)
    have hvalues : pseudoClassLimit = 170 ∧ pseudoElementWeight = 5000 := ⟨rfl, rfl⟩
    rw [hvalues.1] at hle
    omega

/-- A path of 39 pseudo-classes is put in the layer of pseudo-elements and is not outranked by
them; one of 38 is. -/
theorem outranked_iff_hover :
    let stack (n : Nat) : List Condition := List.replicate n (.pseudoClass ":hover")
    let before : List Condition := [.pseudoElement "::before"]
    (ofDeclaration "color" (stack 38)).value < (ofDeclaration "color" before).value ∧
      (ofDeclaration "color" (stack 38)).layer = .pseudoClass ∧
      (ofDeclaration "color" before).value < (ofDeclaration "color" (stack 39)).value ∧
      (ofDeclaration "color" (stack 39)).layer ≠ .pseudoClass ∧
      (ofDeclaration "color" (stack 39)).layer = .pseudoElement := by
  intro stack before
  have hplain : ∀ n, ∀ c ∈ stack n, c.isPlainSelector = true := by
    intro n c hc
    rw [List.eq_of_mem_replicate hc]
    rfl
  have hlength : ∀ n, (stack n).length = n := fun n => List.length_replicate
  obtain ⟨hlow, -⟩ := outranked_iff (q := "color") (by rw [hlength 38]; decide) (hplain 38)
  obtain ⟨-, hhigh, -⟩ := outranked_iff (q := "color") (by rw [hlength 39]; decide) (hplain 39)
  refine ⟨hlow.2 (by decide) "color" before (by decide) (by decide) (by decide), by decide,
    by decide, fun h => ?_, by decide⟩
  exact absurd (hhigh.1 (.inr h)) (by decide)

end Priority

end AtomicCss
