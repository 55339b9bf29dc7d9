import AtomicCss.Sheet

/-!
# Rules that a sheet keeps

A sheet keeps the first rule for each class, so a later rule for a class stays only if it is the
same rule.

* `mem_firstByClass_iff`: the rules that are kept, from which follow `eq_of_mem_firstByClass` and
  `mem_firstByClass_append`.
* `firstByClass_append`: what becomes of later rules.
* `Sheet.mem_ofRules_concat_iff`: what becomes of a further rule for a class.
* `Sheet.mem_ofRules_insert_iff`: rules for different classes do not get in each other's way.
* `Sheet.mem_subset`: the rules that are asked for by their classes.
-/

namespace AtomicCss

/-- The first rule is kept, and later ones if their class is not the same. -/
theorem mem_firstByClass_cons {r t : Rule} {rs : List Rule} :
    r ∈ firstByClass (t :: rs) ↔
      r = t ∨ (r ∈ firstByClass rs ∧ r.className ≠ t.className) := by
  simp [firstByClass]

/-- A rule is kept if it is the first one for its class. -/
theorem mem_firstByClass_iff {rules : List Rule} {r : Rule} :
    r ∈ firstByClass rules ↔ rules.find? (·.className = r.className) = some r := by
  induction rules with
  | nil => simp [firstByClass]
  | cons t rs ih =>
    rw [mem_firstByClass_cons, ih]
    by_cases hclass : t.className = r.className
    · rw [List.find?_cons_of_pos (by simpa using hclass), Option.some.injEq]
      constructor
      · rintro (rfl | ⟨-, hne⟩)
        · rfl
        · exact absurd hclass.symm hne
      · rintro rfl
        exact .inl rfl
    · rw [List.find?_cons_of_neg (by simpa using hclass)]
      constructor
      · rintro (rfl | ⟨hfind, -⟩)
        · exact absurd rfl hclass
        · exact hfind
      · intro hfind
        exact .inr ⟨hfind, Ne.symm hclass⟩

/-- There are no two rules for one class. -/
theorem eq_of_mem_firstByClass {rs : List Rule} {r s : Rule} (hr : r ∈ firstByClass rs)
    (hs : s ∈ firstByClass rs) (h : r.className = s.className) : r = s := by
  rw [mem_firstByClass_iff, h, mem_firstByClass_iff.1 hs] at hr
  exact (Option.some.inj hr).symm

/-- Later rules do not take the place of earlier ones. -/
theorem mem_firstByClass_append {rs : List Rule} {r : Rule} (h : r ∈ firstByClass rs)
    (later : List Rule) : r ∈ firstByClass (rs ++ later) := by
  rw [mem_firstByClass_iff, List.find?_append, mem_firstByClass_iff.1 h]
  rfl

/-- Of later rules those are kept whose class is new. -/
theorem firstByClass_append (rules later : List Rule) :
    firstByClass (rules ++ later) =
      firstByClass rules ++
        (firstByClass later).filter (!(rules.map Rule.className).contains ·.className) := by
  induction rules with
  | nil => exact (List.filter_eq_self.2 fun _ _ => rfl).symm
  | cons t rs ih =>
    simp only [List.cons_append, firstByClass, ih, List.filter_append, List.filter_filter,
      List.map_cons, List.contains_cons, Bool.not_or]
    rfl

/-- Later rules for classes that have one are not kept. -/
theorem firstByClass_append_of_classes {rules later : List Rule}
    (h : ∀ r ∈ later, r.className ∈ rules.map Rule.className) :
    firstByClass (rules ++ later) = firstByClass rules := by
  have hnone : (firstByClass later).filter
      (!(rules.map Rule.className).contains ·.className) = [] := by
    refine List.filter_eq_nil_iff.2 fun r hr => ?_
    have hmem : r ∈ later := List.mem_of_find?_eq_some (mem_firstByClass_iff.1 hr)
    simpa using h r hmem
  rw [firstByClass_append, hnone, List.append_nil]

namespace Sheet

/-- A sheet has the first rule of each class and no others. -/
theorem mem_ofRules {rules : List Rule} {r : Rule} :
    r ∈ (ofRules rules).rules ↔ r ∈ firstByClass rules :=
  (List.mergeSort_perm _ _).mem_iff

/-- A further rule for a class that has one is kept only if it is the same rule. -/
theorem mem_ofRules_concat_iff {rules : List Rule} {r s : Rule} (hr : r ∈ (ofRules rules).rules)
    (h : s.className = r.className) : s ∈ (ofRules (rules ++ [s])).rules ↔ s = r := by
  have hkept : r ∈ firstByClass (rules ++ [s]) := mem_firstByClass_append (mem_ofRules.1 hr) [s]
  rw [mem_ofRules]
  constructor
  · intro hs
    exact eq_of_mem_firstByClass hs hkept h
  · rintro rfl
    exact hkept

/-- A rule for another class does not matter, wherever it is put. -/
theorem mem_ofRules_insert_iff {before after : List Rule} {r s : Rule}
    (h : s.className ≠ r.className) :
    r ∈ (ofRules (before ++ s :: after)).rules ↔ r ∈ (ofRules (before ++ after)).rules := by
  rw [mem_ofRules, mem_ofRules, mem_firstByClass_iff, mem_firstByClass_iff, List.find?_append,
    List.find?_append, List.find?_cons_of_neg (by simpa using h)]

/-- Rules are asked for by their classes. -/
theorem mem_subset {s : Sheet} {classNames : List String} {r : Rule} :
    r ∈ (s.subset classNames).rules ↔ r ∈ s.rules ∧ r.className ∈ classNames := by
  simp [subset]

/-- A sheet without rules is written as the empty text. -/
theorem text_of_rules_eq_nil {s : Sheet} (h : s.rules = []) (useLayers : Bool) :
    s.text useLayers = "" := by
  have hlayers : s.layers = [] := by simp [layers, inLayer, h]
  cases useLayers with
  | true => simp [text, layered, hlayers]
  | false => simp [text, flat, rulesText, h]

end Sheet

end AtomicCss
