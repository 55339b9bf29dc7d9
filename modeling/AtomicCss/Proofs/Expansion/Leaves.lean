import AtomicCss.Proofs.Expansion.Number

/-!
# What leaves declare

Every value that a declaration has was brought into its canonical form, and a leaf of a property
that is no shorthand gives one error or one declaration.

* `StyleValue.exists_of_mem_leaves`: the leaves of a value are of its property, and none of them is
  a conditional map.
* `Declaration.IsCanonical`: the values of a declaration are canonical forms.
  `isCanonical_of_mem_expandProperty` says so of everything that is expanded.
* `Attempt.expand_plain`: what a leaf of a property gives that is no shorthand.
-/

namespace AtomicCss

variable {options : Options} {property : String} {path : List Condition} {d : Declaration}

namespace StyleValue

/-- Whether a value is expanded as a whole, which a conditional map is not. -/
def isLeaf : StyleValue → Bool
  | .conditional _ => false
  | _ => true

mutual

/-- A leaf of a value is of the property of the value and is no conditional map. -/
theorem exists_of_mem_leaves {path : List Condition} : ∀ {value : StyleValue} {a : Attempt},
    a ∈ value.leaves property path →
      ∃ path' leaf, a = .leaf property path' leaf ∧ leaf.isLeaf = true
  | .null, _, h => ⟨path, _, List.mem_singleton.1 h, rfl⟩
  | .number _, _, h => ⟨path, _, List.mem_singleton.1 h, rfl⟩
  | .text _, _, h => ⟨path, _, List.mem_singleton.1 h, rfl⟩
  | .fallbacks _, _, h => ⟨path, _, List.mem_singleton.1 h, rfl⟩
  | .conditional _, _, h => exists_of_mem_entryLeaves h

/-- What there is to expand in the entries of a map are leaves of the property. -/
theorem exists_of_mem_entryLeaves {path : List Condition} :
    ∀ {entries : List (String × StyleValue)} {a : Attempt},
      a ∈ entryLeaves property path entries →
        ∃ path' leaf, a = .leaf property path' leaf ∧ leaf.isLeaf = true
  | [], _, h => by cases h
  | (_, _) :: _, _, h => by
    rw [entryLeaves, List.mem_append] at h
    rcases h with h | h
    · exact exists_of_mem_leaves h
    · exact exists_of_mem_entryLeaves h

end

end StyleValue

/-! ### Canonical values -/

/-- Every value of the declaration is a canonical form. -/
def Declaration.IsCanonical (options : Options) (d : Declaration) : Prop :=
  ∀ value ∈ d.values, ∃ raw, normalValue options d.property raw = .ok value

theorem isCanonical_singleton {raw value : String}
    (h : normalValue options property raw = .ok value) :
    Declaration.IsCanonical options ⟨property, [value], path⟩ := by
  intro v hv
  rw [List.mem_singleton.1 hv]
  exact ⟨raw, h⟩

theorem isCanonical_of_mem_expandNull (h : d ∈ expandNull property path) :
    d.IsCanonical options := by
  obtain ⟨target, -, rfl⟩ := List.mem_map.1 h
  intro value hvalue
  cases hvalue

/-- A number is normalized on its way into a declaration. -/
theorem isCanonical_of_mem_expandNumber {x : Float} (h : d ∈ expandNumber options property path x) :
    d.IsCanonical options := by
  obtain ⟨target, -, rfl⟩ := List.mem_map.1 h
  exact isCanonical_singleton (normalValue_numberText options target x)

theorem isCanonical_of_mem_expandPlain {raw : String} {ds : List Declaration}
    (hds : expandPlain options property path raw = .ok ds) (h : d ∈ ds) :
    d.IsCanonical options := by
  obtain ⟨value, hvalue, rfl⟩ := Outcome.map_eq_ok.1 hds
  rw [List.mem_singleton.1 h]
  exact isCanonical_singleton hvalue

theorem isCanonical_of_mem_expandParts {parts : List (String × String)} {ds : List Declaration}
    (hds : expandParts options path parts = .ok ds) (h : d ∈ ds) : d.IsCanonical options := by
  induction parts generalizing ds with
  | nil =>
    cases hds
    cases h
  | cons part parts ih =>
    obtain ⟨value, hvalue, hds⟩ := Outcome.bind_eq_ok.1 hds
    obtain ⟨rest, hrest, hds⟩ := Outcome.bind_eq_ok.1 hds
    cases hds
    rcases List.mem_cons.1 h with rfl | h
    · exact isCanonical_singleton hvalue
    · exact ih hrest h

theorem isCanonical_of_mem_expandText {raw : String} {ds : List Declaration}
    (hds : expandText options property path raw = .ok ds) (h : d ∈ ds) :
    d.IsCanonical options := by
  unfold expandText at hds
  split at hds
  · exact isCanonical_of_mem_expandPlain hds h
  · split at hds
    · exact isCanonical_of_mem_expandPlain hds h
    · unfold expandShorthand at hds
      split at hds
      · cases hds
      · obtain ⟨assigned, -, hds⟩ := Outcome.bind_eq_ok.1 hds
        exact isCanonical_of_mem_expandParts hds h

/-- Alternatives are brought into their canonical form one by one. -/
theorem isCanonical_of_mem_expandFallbacks {items : List StyleValue} {ds : List Declaration}
    (hds : expandFallbacks options property path items = .ok ds) (h : d ∈ ds) :
    d.IsCanonical options := by
  unfold expandFallbacks at hds
  split at hds
  · cases hds
  · obtain ⟨values, hvalues, hds⟩ := Outcome.bind_eq_ok.1 hds
    split at hds
    · cases hds
    · cases hds
      rw [List.mem_singleton.1 h]
      intro value hvalue
      obtain ⟨item, -, hitem⟩ := Outcome.exists_of_mem_mapM hvalues hvalue
      cases item with
      | text raw => exact ⟨raw, hitem⟩
      | number x =>
        cases hitem
        exact ⟨_, normalValue_numberText options property x⟩
      | _ => cases hitem

/-- The declarations of a leaf are canonical, if all that it may give are. -/
theorem isCanonical_of_mem_leafEvent (property : String)
    (outcome : Except StyleError (List Declaration))
    (hcanonical : ∀ ds, outcome = .ok ds → ∀ d ∈ ds, d.IsCanonical options)
    (h : d ∈ Expansion.declarations ⟨[leafEvent property outcome]⟩) : d.IsCanonical options := by
  cases outcome with
  | error error => cases h
  | ok ds =>
    rw [Expansion.declarations_leafEvent_ok] at h
    exact hcanonical ds rfl d h

/-- Every declaration of a leaf is canonical, whichever form the leaf has. -/
theorem isCanonical_of_mem_expand {value : StyleValue} (hleaf : value.isLeaf = true)
    (h : d ∈ ((Attempt.leaf property path value).expand options).declarations) :
    d.IsCanonical options := by
  cases value with
  | null =>
    refine isCanonical_of_mem_leafEvent property (.ok (expandNull property path)) ?_ h
    rintro _ ⟨⟩ _
    exact isCanonical_of_mem_expandNull
  | number x =>
    refine isCanonical_of_mem_leafEvent property (.ok (expandNumber options property path x)) ?_ h
    rintro _ ⟨⟩ _
    exact isCanonical_of_mem_expandNumber
  | text raw =>
    exact isCanonical_of_mem_leafEvent _ _ (fun _ hds _ => isCanonical_of_mem_expandText hds) h
  | fallbacks items =>
    exact isCanonical_of_mem_leafEvent _ _ (fun _ hds _ => isCanonical_of_mem_expandFallbacks hds) h
  | conditional entries => cases hleaf

/-- All values that the expansion of a property gives are canonical forms. -/
theorem isCanonical_of_mem_expandProperty {key : String} {value : StyleValue}
    (h : d ∈ (expandProperty options key value).declarations) : d.IsCanonical options := by
  rw [(tallies_expandProperty options key value).declarations] at h
  obtain ⟨a, ha, hd⟩ := List.mem_flatMap.1 h
  obtain ⟨path, leaf, rfl, hleaf⟩ := StyleValue.exists_of_mem_leaves ha
  exact isCanonical_of_mem_expand hleaf hd

/-! ### Properties that are no shorthands -/

/-- A leaf of a property that is no shorthand gives one error, or one declaration of the property
under the path of the leaf. -/
theorem Attempt.expand_plain (hproperty : shorthandFor? property = none) {value : StyleValue}
    (hleaf : value.isLeaf = true) :
    let e := (Attempt.leaf property path value).expand options
    (∃ error, e.errors = [error] ∧ e.declarations = []) ∨
      ∃ values, e.errors = [] ∧ e.declarations = [⟨property, values, path⟩] := by
  -- Every form of a leaf is one event, so it is enough to look at its outcome.
  have hone : ∀ outcome : Except StyleError (List Declaration),
      (∀ ds, outcome = .ok ds → ∃ values, ds = [⟨property, values, path⟩]) →
      (∃ error, Expansion.errors ⟨[leafEvent property outcome]⟩ = [error] ∧
          Expansion.declarations ⟨[leafEvent property outcome]⟩ = []) ∨
        ∃ values, Expansion.errors ⟨[leafEvent property outcome]⟩ = [] ∧
          Expansion.declarations ⟨[leafEvent property outcome]⟩ = [⟨property, values, path⟩] := by
    intro outcome h
    cases outcome with
    | error error => exact .inl ⟨error, rfl, rfl⟩
    | ok ds =>
      obtain ⟨values, rfl⟩ := h ds rfl
      exact .inr ⟨values, rfl, rfl⟩
  have htargets : targets property = [property] := by simp only [targets, hproperty]
  cases value with
  | null =>
    refine hone (.ok (expandNull property path)) ?_
    rintro _ ⟨⟩
    exact ⟨[], by rw [expandNull, htargets, List.map_singleton]⟩
  | number x =>
    refine hone (.ok (expandNumber options property path x)) ?_
    rintro _ ⟨⟩
    exact ⟨_, by rw [expandNumber, htargets, List.map_singleton]⟩
  | text raw =>
    refine hone _ fun ds hds => ?_
    simp only [expandText, hproperty] at hds
    obtain ⟨value, -, rfl⟩ := Outcome.map_eq_ok.1 hds
    exact ⟨[value], rfl⟩
  | fallbacks items =>
    refine hone _ fun ds hds => ?_
    simp only [expandFallbacks, hproperty] at hds
    obtain ⟨values, -, hds⟩ := Outcome.bind_eq_ok.1 hds
    split at hds
    · cases hds
    · cases hds
      exact ⟨values, rfl⟩
  | conditional entries => cases hleaf

end AtomicCss
