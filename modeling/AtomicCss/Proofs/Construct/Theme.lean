import AtomicCss.Construct.Variables
import AtomicCss.Proofs.Lookup
import AtomicCss.Proofs.Outcome
import AtomicCss.Proofs.Sheet.Order

/-!
# Asking for the rules of a theme

The table of a theme gives the class that puts the theme into effect, and the selectors of its rules
have that class. The rules themselves go by other names: each by the digest of its own text, so that
the rules under different at-rules are kept apart. A sheet picks rules by these names.

* `createTheme_eq_ok`: the table and the rules of a theme.
* `createTheme_rule`: a rule of a theme is for the class of the theme and has a name of its own.
* `createTheme_requested_iff`: what a sheet gives when it is asked for the class of a theme.
-/

namespace AtomicCss

variable {options : Options} {group : String} {d : Definition} {c : Compiled}

/-! ### Names -/

/-- Names with one prefix are told apart by the short names of their texts. -/
theorem prefixedName_inj {s t : String} :
    prefixedName options s = prefixedName options t ↔ shortName s = shortName t := by
  constructor
  · intro h
    have hchars := congrArg String.toList h
    simp only [prefixedName, String.toList_append, List.append_cancel_left_eq] at hchars
    exact String.toList_inj.1 hchars
  · intro h
    rw [prefixedName, prefixedName, h]

/-- The text after which the class of a theme is named. -/
def themeText (group : String) (d : Definition) : String :=
  "theme:" ++ group ++ d.canonicalText

theorem themeName_eq : themeName options group d = prefixedName options (themeText group d) :=
  rfl

/-! ### The rules of a theme -/

/-- A theme that is accepted has one entry, and its rules are those of its variables. -/
theorem createTheme_eq_ok (h : createTheme options group d = .ok c) :
    c.table = ⟨group, [(.plain group, .className (themeName options group d))]⟩ ∧
      c.rules = (Variables.ofDefinition options group d).rules options
        (themeSelector (themeName options group d)) .theme := by
  simp only [createTheme, Variables.compiled] at h
  split at h
  · cases h
  · cases h
    exact ⟨rfl, rfl⟩

/-- The class in the table of a theme is the class of the theme. -/
theorem createTheme_className {key : LookupKey} {className : String}
    (h : createTheme options group d = .ok c)
    (hentry : (key, .className className) ∈ c.table.entries) :
    className = themeName options group d := by
  rw [(createTheme_eq_ok h).1] at hentry
  obtain ⟨-, hclass⟩ := Prod.mk.inj (List.mem_singleton.1 hentry)
  exact StyleRef.className.inj hclass

/-- A rule of a theme is for the class of the theme, and it is named after its own text. -/
theorem createTheme_rule (h : createTheme options group d = .ok c) {r : Rule} (hr : r ∈ c.rules) :
    r.className = prefixedName options r.ltr ∧
      ∃ body path,
        r.ltr = wrapAtRules (block (themeSelector (themeName options group d)) body) path := by
  rw [(createTheme_eq_ok h).2] at hr
  obtain ⟨declarations, -, rfl⟩ := List.mem_map.1 hr
  exact ⟨rfl, _, _, rfl⟩

/-- A rule of a theme goes by the class of the theme exactly if the text of the rule and the text
that names the theme have one short name. -/
theorem createTheme_className_eq_iff (h : createTheme options group d = .ok c) {r : Rule}
    (hr : r ∈ c.rules) :
    r.className = themeName options group d ↔ shortName r.ltr = shortName (themeText group d) := by
  rw [(createTheme_rule h hr).1, themeName_eq, prefixedName_inj]

/-! ### Asking by the class of the theme -/

/-- The rules of a theme that a sheet gives for the class of the theme. -/
theorem mem_subset_themeName_iff (h : createTheme options group d = .ok c) {r : Rule} :
    r ∈ ((Sheet.ofRules c.rules).subset [themeName options group d]).rules ↔
      r ∈ (Sheet.ofRules c.rules).rules ∧ shortName r.ltr = shortName (themeText group d) := by
  rw [Sheet.mem_subset, List.mem_singleton]
  refine and_congr_right fun hkept => ?_
  have hr : r ∈ c.rules := mem_of_mem_firstByClass (Sheet.mem_ofRules.1 hkept)
  exact createTheme_className_eq_iff h hr

/-- The rules of a theme have the class of the theme in their selectors, but when a sheet of these
rules is asked for that class, it gives those rules only whose text happens to have the short name
of the text that names the theme. So it gives all of them exactly if they are one rule and this is
the case for it, and if it is the case for none of them then the stylesheet for the class is
empty. -/
theorem createTheme_requested_iff {key : LookupKey} {className : String}
    (h : createTheme options group d = .ok c)
    (hentry : (key, .className className) ∈ c.table.entries) :
    let requested := (Sheet.ofRules c.rules).subset [className]
    (∀ r ∈ c.rules, ∃ body path, r.ltr = wrapAtRules (block (themeSelector className) body) path) ∧
    (∀ r ∈ (Sheet.ofRules c.rules).rules,
      r ∈ requested.rules ↔ shortName r.ltr = shortName (themeText group d)) ∧
    ((∀ r ∈ c.rules, r ∈ requested.rules) ↔
      ∀ r ∈ c.rules, shortName r.ltr = shortName (themeText group d) ∧ ∀ s ∈ c.rules, s = r) ∧
    ((∀ r ∈ c.rules, shortName r.ltr ≠ shortName (themeText group d)) →
      ∀ useLayers, requested.text useLayers = "") := by
  intro requested
  obtain rfl := createTheme_className h hentry
  refine ⟨fun r hr => (createTheme_rule h hr).2, ?_, ?_, ?_⟩
  · intro r hkept
    rw [mem_subset_themeName_iff h]
    exact and_iff_right hkept
  · constructor
    · intro hall r hr
      obtain ⟨hkept, hname⟩ := (mem_subset_themeName_iff h).1 (hall r hr)
      refine ⟨hname, fun s hs => ?_⟩
      obtain ⟨hkept', hname'⟩ := (mem_subset_themeName_iff h).1 (hall s hs)
      -- A sheet has one rule for a class, and both rules go by that of the theme.
      refine eq_of_mem_firstByClass (Sheet.mem_ofRules.1 hkept') (Sheet.mem_ofRules.1 hkept) ?_
      rw [(createTheme_className_eq_iff h hs).2 hname', (createTheme_className_eq_iff h hr).2 hname]
    · intro hone r hr
      have hkept : r ∈ firstByClass c.rules :=
        Sheet.mem_firstByClass_of_mem (fun s hs t ht _ => (hone t ht).2 s hs) hr
      exact (mem_subset_themeName_iff h).2 ⟨Sheet.mem_ofRules.2 hkept, (hone r hr).1⟩
  · intro hnone
    refine Sheet.text_of_rules_eq_nil (List.eq_nil_iff_forall_not_mem.2 fun r hr => ?_)
    obtain ⟨hkept, hname⟩ := (mem_subset_themeName_iff h).1 hr
    exact hnone r (mem_of_mem_firstByClass (Sheet.mem_ofRules.1 hkept)) hname

/-- A theme with a value for print: of its two rules none is given for its class. -/
theorem createTheme_requested_iff_print :
    let d : Definition := .ofEntries [("accent",
      .conditional [("default", .text "red"), ("@media print", .text "black")])]
    let rules : List Rule :=
      [⟨"xoevvc7", ".xifp7ck,.xifp7ck:root\x7b--xunf1ll:red\x7d", none, .theme⟩,
        ⟨"x1rormi9", "@media print\x7b.xifp7ck,.xifp7ck:root\x7b--xunf1ll:black\x7d\x7d", none,
          .theme⟩]
    createTheme {} "tokens" d =
        .ok ⟨⟨"tokens", [(.plain "tokens", .className "xifp7ck")]⟩, rules, []⟩ ∧
      (¬ ∀ r ∈ rules, r ∈ ((Sheet.ofRules rules).subset ["xifp7ck"]).rules) ∧
      ∀ useLayers, ((Sheet.ofRules rules).subset ["xifp7ck"]).text useLayers = "" := by
  intro d rules
  have h : createTheme {} "tokens" d =
      .ok ⟨⟨"tokens", [(.plain "tokens", .className "xifp7ck")]⟩, rules, []⟩ :=
    Outcome.eq_ok_of_toOption (by decide +kernel)
  have hnone : ∀ r ∈ rules, shortName r.ltr ≠ shortName (themeText "tokens" d) := by decide +kernel
  obtain ⟨-, -, hall, hempty⟩ := createTheme_requested_iff h (List.mem_singleton.2 rfl)
  refine ⟨h, fun hrules => ?_, hempty hnone⟩
  exact hnone _ List.mem_cons_self (hall.1 hrules _ List.mem_cons_self).1

end AtomicCss
