import AtomicCss.Proofs.Sheet.Order

/-!
# Sheets from parts and parts of sheets

Rules may be collected in parts, of which some are sheets already, and a sheet may be cut down to
some classes. Neither depends on whether the rules were sorted before or after: two lists of rules
have the same sheet exactly if, priority by priority, they have the same first rules for their
classes.

* `eq_of_filter_priority_eq`: sorted rules are determined by the rules of each priority.
* `Sheet.ofRules_eq_iff`: when two lists of rules have the same sheet.
* `Sheet.ofRules_append_congr`: a part may be replaced by any other with the same sheet.
* `Sheet.ofRules_parts_eq`: building a sheet from parts.
* `Sheet.subset_ofRules_eq`: cutting a sheet down to some classes.
-/

namespace AtomicCss

/-! ### First rules -/

/-- If no class has two rules, then all rules are kept. -/
theorem firstByClass_eq_self {rules : List Rule} (h : (rules.map Rule.className).Nodup) :
    firstByClass rules = rules := by
  induction rules with
  | nil => rfl
  | cons t rs ih =>
    obtain ⟨hnot, hrest⟩ := List.nodup_cons.1 h
    have hother : ∀ r ∈ rs, r.className != t.className := by
      intro r hr
      have hne : r.className ≠ t.className := fun hsame => hnot (hsame ▸ List.mem_map_of_mem hr)
      simpa using hne
    rw [firstByClass, ih hrest, List.filter_eq_self.2 hother]

/-- Choosing rules by their classes does not change which rule is the first for its class. -/
theorem firstByClass_filter (q : String → Bool) (rules : List Rule) :
    firstByClass (rules.filter (q ·.className)) = (firstByClass rules).filter (q ·.className) := by
  induction rules with
  | nil => rfl
  | cons t rs ih =>
    simp only [List.filter_cons, firstByClass]
    by_cases ht : q t.className
    · rw [if_pos ht, if_pos ht, firstByClass, ih, List.filter_comm]
    · rw [if_neg ht, if_neg ht, ih, List.filter_filter]
      -- What is chosen is of another class than the rule at the front.
      refine List.filter_congr fun r _ => ?_
      by_cases hclass : r.className = t.className
      · simp [hclass, ht]
      · simp [hclass]

/-! ### Rules of one priority -/

/-- Lists that are the same within each priority have the same rules. -/
theorem mem_iff_of_filter_priority_eq {rs ss : List Rule}
    (h : ∀ p, rs.filter (·.priority = p) = ss.filter (·.priority = p)) {r : Rule} :
    r ∈ rs ↔ r ∈ ss := by
  have hr := congrArg (r ∈ ·) (h r.priority)
  simpa using hr

/-- Rules in the order of their priorities are determined by the rules of each priority. -/
theorem eq_of_filter_priority_eq {rs ss : List Rule}
    (hrs : rs.Pairwise fun r s => r.priority.value ≤ s.priority.value)
    (hss : ss.Pairwise fun r s => r.priority.value ≤ s.priority.value)
    (h : ∀ p, rs.filter (·.priority = p) = ss.filter (·.priority = p)) : rs = ss := by
  induction rs generalizing ss with
  | nil =>
    refine (List.eq_nil_iff_forall_not_mem.2 fun s hs => ?_).symm
    cases (mem_iff_of_filter_priority_eq h).2 hs
  | cons r rs ih =>
    have hr : r ∈ ss := (mem_iff_of_filter_priority_eq h).1 List.mem_cons_self
    cases ss with
    | nil => cases hr
    | cons s ss =>
      have hs : s ∈ r :: rs := (mem_iff_of_filter_priority_eq h).2 List.mem_cons_self
      obtain ⟨hfirst, hrest⟩ := List.pairwise_cons.1 hrs
      obtain ⟨hfirst', hrest'⟩ := List.pairwise_cons.1 hss
      -- Each of the two first rules is in the other list too, so neither has the lower priority.
      have hpriority : r.priority = s.priority := by
        rcases List.mem_cons.1 hr with rfl | hr
        · rfl
        · rcases List.mem_cons.1 hs with rfl | hs
          · rfl
          · exact congrArg Priority.mk (UInt32.le_antisymm (hfirst s hs) (hfirst' r hr))
      have hsame := h r.priority
      rw [List.filter_cons_of_pos (by simp), List.filter_cons_of_pos (by simp [hpriority])] at hsame
      obtain ⟨rfl, htail⟩ := List.cons.inj hsame
      refine congrArg (r :: ·) (ih hrest hrest' fun p => ?_)
      by_cases hp : r.priority = p
      · rw [← hp]
        exact htail
      · have hother := h p
        rwa [List.filter_cons_of_neg (by simpa using hp),
          List.filter_cons_of_neg (by simpa using hp)] at hother

namespace Sheet

variable {rules others : List Rule}

/-- Two lists of rules have the same sheet exactly if they have the same first rules of each
priority, in the same order. -/
theorem ofRules_eq_iff :
    ofRules rules = ofRules others ↔ ∀ p,
      (firstByClass rules).filter (·.priority = p) =
        (firstByClass others).filter (·.priority = p) := by
  constructor
  · intro h p
    rw [← filter_priority_ofRules, h, filter_priority_ofRules]
  · intro h
    have hrules : (ofRules rules).rules = (ofRules others).rules := by
      refine eq_of_filter_priority_eq (pairwise_ofRules rules) (pairwise_ofRules others) fun p => ?_
      rw [filter_priority_ofRules, filter_priority_ofRules, h]
    exact congrArg Sheet.mk hrules

/-! ### Building from parts -/

/-- The rules of a sheet have this sheet. -/
theorem ofRules_rules (rules : List Rule) : ofRules (ofRules rules).rules = ofRules rules := by
  refine ofRules_eq_iff.2 fun p => ?_
  rw [firstByClass_eq_self (arranges_ofRules rules).nodup, filter_priority_ofRules]

/-- Rules that are dropped in a sheet may be dropped before. -/
theorem ofRules_firstByClass (rules : List Rule) :
    ofRules (firstByClass rules) = ofRules rules := by
  rw [ofRules, firstByClass_eq_self (nodup_firstByClass rules), ofRules]

/-- The classes of rules can be seen from their sheet. -/
theorem contains_classes_of_eq (h : ofRules rules = ofRules others) (className : String) :
    (rules.map Rule.className).contains className =
      (others.map Rule.className).contains className := by
  rw [Bool.eq_iff_iff, List.contains_iff_mem, List.contains_iff_mem,
    ← (arranges_ofRules rules).classes, h, (arranges_ofRules others).classes]

/-- A part may be replaced by any other with the same sheet, whatever comes before and after. -/
theorem ofRules_append_congr {later laterOthers : List Rule} (h : ofRules rules = ofRules others)
    (hlater : ofRules later = ofRules laterOthers) :
    ofRules (rules ++ later) = ofRules (others ++ laterOthers) := by
  refine ofRules_eq_iff.2 fun p => ?_
  simp only [firstByClass_append, List.filter_append, ofRules_eq_iff.1 h p,
    contains_classes_of_eq h]
  -- Which of the later rules have a new class does not depend on their priorities.
  rw [List.filter_comm, ofRules_eq_iff.1 hlater p, List.filter_comm]

/-- The rules of the sheets of several parts have the sheet of all rules. -/
theorem ofRules_flatMap (parts : List (List Rule)) :
    ofRules (parts.flatMap fun part => (ofRules part).rules) = ofRules parts.flatten := by
  induction parts with
  | nil => rfl
  | cons part parts ih =>
    rw [List.flatMap_cons, List.flatten_cons]
    exact ofRules_append_congr (ofRules_rules part) ih

/-- Building a sheet can be interrupted: one may go on from the rules of a sheet, or from rules of
which later copies were left out already, and one may add the rules of a sheet. So the sheets of any
number of parts can be merged. In each case the sheet is that of all rules. -/
theorem ofRules_parts_eq (rules later : List Rule) :
    ofRules ((ofRules rules).rules ++ later) = ofRules (rules ++ later) ∧
      ofRules (rules ++ (ofRules later).rules) = ofRules (rules ++ later) ∧
      ofRules (firstByClass rules ++ later) = ofRules (rules ++ later) ∧
      ∀ parts : List (List Rule),
        let merged := ofRules (parts.flatMap fun part => (ofRules part).rules)
        merged = ofRules parts.flatten ∧ Arranges parts.flatten merged.rules := by
  refine ⟨ofRules_append_congr (ofRules_rules rules) rfl,
    ofRules_append_congr rfl (ofRules_rules later),
    ofRules_append_congr (ofRules_firstByClass rules) rfl, ?_⟩
  intro parts merged
  have hmerged : merged = ofRules parts.flatten := ofRules_flatMap parts
  exact ⟨hmerged, hmerged ▸ arranges_ofRules parts.flatten⟩

/-! ### Cutting down to some classes -/

/-- The sheet with the rules of some classes is the sheet of the rules of these classes. -/
theorem subset_ofRules (rules : List Rule) (classNames : List String) :
    (ofRules rules).subset classNames =
      ofRules (rules.filter (classNames.contains ·.className)) := by
  refine congrArg Sheet.mk (eq_of_filter_priority_eq
    ((pairwise_ofRules rules).sublist List.filter_sublist) (pairwise_ofRules _) fun p => ?_)
  calc ((ofRules rules).rules.filter (classNames.contains ·.className)).filter (·.priority = p)
    _ = ((ofRules rules).rules.filter (·.priority = p)).filter
          (classNames.contains ·.className) := List.filter_comm ..
    _ = ((firstByClass rules).filter (·.priority = p)).filter
          (classNames.contains ·.className) := by rw [filter_priority_ofRules]
    _ = ((firstByClass rules).filter (classNames.contains ·.className)).filter
          (·.priority = p) := List.filter_comm ..
    _ = (firstByClass (rules.filter (classNames.contains ·.className))).filter
          (·.priority = p) := by rw [firstByClass_filter]
    _ = (ofRules (rules.filter (classNames.contains ·.className))).rules.filter
          (·.priority = p) := (filter_priority_ofRules ..).symm

/-- Classes that are asked for one after the other are asked for together. -/
theorem subset_subset (s : Sheet) {classNames others both : List String}
    (h : ∀ className, className ∈ both ↔ className ∈ classNames ∧ className ∈ others) :
    (s.subset classNames).subset others = s.subset both := by
  unfold subset
  rw [List.filter_filter]
  refine congrArg Sheet.mk (List.filter_congr fun r _ => ?_)
  rw [Bool.eq_iff_iff, Bool.and_eq_true, List.contains_iff_mem, List.contains_iff_mem,
    List.contains_iff_mem, h, and_comm]

/-- It is the same whether a sheet is cut down to some classes or built from their rules only, and
so it has the first rule for each of these classes, in order. Its text has the texts of the rules of
these classes in the order of the whole sheet. A sheet that is cut down twice is cut down to the
classes that were asked for both times. -/
theorem subset_ofRules_eq (rules : List Rule) (classNames : List String) :
    (ofRules rules).subset classNames = ofRules (rules.filter (·.className ∈ classNames)) ∧
      Arranges (rules.filter (·.className ∈ classNames))
        ((ofRules rules).subset classNames).rules ∧
      ((ofRules rules).subset classNames).text false =
        String.intercalate "\n"
          (((ofRules rules).rules.filter (·.className ∈ classNames)).flatMap Rule.texts) ∧
      ∀ others both, (∀ className, className ∈ both ↔ className ∈ classNames ∧ className ∈ others) →
        ∀ s : Sheet, (s.subset classNames).subset others = s.subset both := by
  have hmem : (fun r : Rule => classNames.contains r.className) =
      fun r => decide (r.className ∈ classNames) := funext fun r => List.contains_eq_mem ..
  have hbuilt := subset_ofRules rules classNames
  rw [hmem] at hbuilt
  refine ⟨hbuilt, hbuilt ▸ arranges_ofRules _, ?_, fun others both h s => subset_subset s h⟩
  rw [← hmem]
  rfl

/-- A class with a second rule of another priority: cut down, the sheet still has the first one, at
its place. -/
theorem subset_ofRules_eq_copy :
    let hover : Rule := ⟨"b", ".b:hover\x7bcolor:blue\x7d", none, ⟨1312⟩⟩
    let plain : Rule := ⟨"a", ".a\x7bcolor:red\x7d", none, ⟨12⟩⟩
    let other : Rule := ⟨"c", ".c\x7bcolor:green\x7d", none, ⟨12⟩⟩
    let copy : Rule := ⟨"b", ".b\x7bcolor:blue\x7d", none, ⟨12⟩⟩
    let s := ofRules [hover, plain, other, copy]
    s.rules = [plain, other, hover] ∧
      s.subset ["b", "a", "d"] = ofRules [hover, plain, copy] ∧
      (s.subset ["b", "a", "d"]).text false = ".a\x7bcolor:red\x7d\n.b:hover\x7bcolor:blue\x7d" ∧
      (s.subset ["b", "a", "d"]).subset ["c", "b"] = s.subset ["b"] := by
  intro hover plain other copy s
  have hrules : s.rules = [plain, other, hover] := by
    simp [s, hover, plain, other, copy, ofRules, firstByClass, List.mergeSort, Rule.precedes]
  obtain ⟨hbuilt, -, htext, htwice⟩ :=
    subset_ofRules_eq [hover, plain, other, copy] ["b", "a", "d"]
  have hboth : ∀ className, className ∈ ["b"] ↔
      className ∈ ["b", "a", "d"] ∧ className ∈ ["c", "b"] := by grind
  refine ⟨hrules, hbuilt, ?_, htwice _ _ hboth s⟩
  rw [htext, show (ofRules [hover, plain, other, copy]).rules = _ from hrules]
  decide

end Sheet

end AtomicCss
