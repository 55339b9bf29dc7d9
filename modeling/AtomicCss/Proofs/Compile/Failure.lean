import AtomicCss.Compile
import AtomicCss.Proofs.Expansion.Removal

/-!
# What a failure means for a compilation

A compilation fails as a whole if there was something to compile and nothing of it gave a
declaration. Otherwise what failed is listed, and has no effect beyond this: with or without it the
rules and the table are the same.

* `Expansion.Tallies.failure?_eq_some_iff`, `Expansion.Tallies.failure?_eq_none_iff`: when an
  expansion fails as a whole.
* `compileNamespace_fails_iff`: when a compilation fails, and with which error.
* `expandDefinition_eraseAt`: what becomes of an expansion when something that fails is removed.
* `compileNamespace_eraseAt`: what becomes of the compilation.
-/

namespace AtomicCss

variable {options : Options} {d : Definition}

/-! ### Failing as a whole -/

namespace Expansion.Tallies

variable {attempts : List Attempt} {e : Expansion}

/-- An expansion fails with its first error exactly when it tried something and kept nothing. -/
theorem failure?_eq_some_iff (h : e.Tallies options attempts) {error : StyleError} :
    e.failure? = some error ↔
      (0 < e.attempted ∧ e.declarations = []) ∧ e.errors.head? = some error := by
  rw [← h.allFailed_iff, failure?]
  split
  case isTrue hall => simp [hall]
  case isFalse hall => simp [hall]

/-- An expansion goes on exactly when it kept a declaration or tried none. -/
theorem failure?_eq_none_iff (h : e.Tallies options attempts) :
    e.failure? = none ↔ ¬ (0 < e.attempted ∧ e.declarations = []) := by
  constructor
  · intro hnone hfailed
    obtain ⟨-, -, error, -, -, hhead⟩ := h.exists_head?_errors hfailed.1 hfailed.2
    rw [h.failure?_eq_some_iff.2 ⟨hfailed, hhead⟩] at hnone
    cases hnone
  · intro hnot
    rw [failure?, if_neg (mt h.allFailed_iff.1 hnot)]

end Expansion.Tallies

/-- The first error of a failed expansion is what the whole definition answers. -/
theorem compileNamespace_of_failure? {error : StyleError}
    (h : (expandDefinition options d).failure? = some error) (name : String) :
    compileNamespace options name d = .error ⟨name, error⟩ := by
  simp only [compileNamespace, h]

/-- Past the failure check, a definition is compiled from what its expansion kept. -/
theorem compileNamespace_of_not_failure? (h : (expandDefinition options d).failure? = none)
    (name : String) :
    compileNamespace options name d = .ok (compileDeclarations options name
      (expandDefinition options d).declarations (expandDefinition options d).errors) := by
  simp only [compileNamespace, h]

/-- An expansion is the sum of its attempts, of which each has one error and no declaration or no
error and some declarations. A compilation fails exactly if something was attempted and there is no
declaration; then the error is the first one, which is that of the first attempt in authored order.
Otherwise it succeeds and lists the errors of the expansion in order. -/
theorem compileNamespace_fails_iff (options : Options) (name : String) (d : Definition) :
    let e := expandDefinition options d
    (∀ property value, (expandProperty options property value).Tallies options
      (value.leaves (Property.dashed property) [])) ∧
    e.Tallies options d.attempts ∧
    ((∃ error, compileNamespace options name d = .error error) ↔
      0 < e.attempted ∧ e.declarations = []) ∧
    (∀ error, compileNamespace options name d = .error error →
      error.space = name ∧ e.errors.head? = some error.error ∧
        ∃ first rest, d.attempts = first :: rest ∧
          (first.expand options).errors = [error.error]) ∧
    ((∃ c, compileNamespace options name d = .ok c ∧
        c.errors = e.errors.map fun error => ⟨name, error⟩) ↔
      ¬ (0 < e.attempted ∧ e.declarations = [])) := by
  intro e
  have htallies : e.Tallies options d.attempts := tallies_expandDefinition options d
  refine ⟨tallies_expandProperty options, htallies, ?_⟩
  -- Both equivalences follow from the one case that applies.
  by_cases hfailed : 0 < e.attempted ∧ e.declarations = []
  · obtain ⟨first, rest, cause, hfirst, hcause, hhead⟩ :=
      htallies.exists_head?_errors hfailed.1 hfailed.2
    have herror : compileNamespace options name d = .error ⟨name, cause⟩ :=
      compileNamespace_of_failure? (htallies.failure?_eq_some_iff.2 ⟨hfailed, hhead⟩) name
    rw [herror]
    refine ⟨iff_of_true ⟨_, rfl⟩ hfailed, ?_, iff_of_false ?_ (not_not_intro hfailed)⟩
    · rintro _ ⟨⟩
      exact ⟨rfl, hhead, first, rest, hfirst, hcause⟩
    · rintro ⟨_, ⟨⟩, -⟩
  · rw [compileNamespace_of_not_failure? (htallies.failure?_eq_none_iff.2 hfailed) name]
    refine ⟨iff_of_false ?_ hfailed, ?_, iff_of_true ⟨_, rfl, rfl⟩ hfailed⟩
    · rintro ⟨_, ⟨⟩⟩
    · rintro _ ⟨⟩

/-- A condition where a property should stand, and a call that is not closed: the first is
reported. With another property beside them both are listed. -/
theorem compileNamespace_fails_iff_condition :
    let broken : List (String × StyleValue) :=
      [(":hover", .conditional [("color", .text "red")]), ("width", .text "calc(1px")]
    let condition : StyleError := .unsupported ":hover" .conditionKey
    let unclosed : StyleError := .malformed "width" "calc(1px" .unclosedCall
    compileNamespace {} "a" (.ofEntries broken) = .error ⟨"a", condition⟩ ∧
    ∃ c, compileNamespace {} "a" (.ofEntries (broken ++ [("margin", .number 1)])) = .ok c ∧
      c.errors = [⟨"a", condition⟩, ⟨"a", unclosed⟩] := by
  intro broken condition unclosed
  constructor
  · obtain ⟨-, -, hfails, hfirst, -⟩ := compileNamespace_fails_iff {} "a" (.ofEntries broken)
    obtain ⟨⟨space, cause⟩, herror⟩ := hfails.2 (by decide +kernel)
    obtain ⟨rfl, hhead, -⟩ := hfirst _ herror
    have hcause : (expandDefinition {} (.ofEntries broken)).errors.head? = some condition := by
      decide +kernel
    obtain rfl : condition = cause := Option.some.inj (hcause.symm.trans hhead)
    exact herror
  · obtain ⟨-, -, -, -, hok⟩ :=
      compileNamespace_fails_iff {} "a" (.ofEntries (broken ++ [("margin", .number 1)]))
    obtain ⟨c, hc, herrors⟩ := hok.2 (by decide +kernel)
    refine ⟨c, hc, herrors.trans ?_⟩
    decide +kernel

/-! ### Removing what fails -/

/-- Removing something that fails takes its error from the expansion, and nothing else. -/
theorem expandDefinition_eraseAt {address : List Nat} {a : Attempt} {error : StyleError}
    (hat : d.attemptAt? address = some a) (herror : error ∈ (a.expand options).errors) :
    let e := expandDefinition options d
    let e' := expandDefinition options (d.eraseAt address)
    e'.declarations = e.declarations ∧ e.attempted = e'.attempted + 1 ∧
      ∃ before after, d.attempts = before ++ a :: after ∧
        (d.eraseAt address).attempts = before ++ after ∧
        e.errors = errorsOf options before ++ error :: errorsOf options after ∧
        e'.errors = errorsOf options before ++ errorsOf options after := by
  intro e e'
  have htallies : e.Tallies options d.attempts := tallies_expandDefinition options d
  have htallies' : e'.Tallies options (d.eraseAt address).attempts :=
    tallies_expandDefinition options _
  obtain ⟨before, after, hattempts, hattempts'⟩ := Definition.loses_attempts hat
  -- An attempt with an error has this one only, and declares nothing.
  obtain ⟨herrors, hnone⟩ : (a.expand options).errors = [error] ∧
      (a.expand options).declarations = [] := by
    rcases (htallies.single a (Definition.loses_attempts hat).mem).outcome with
      ⟨other, herrors, hnone⟩ | ⟨hnoerror, -⟩
    · rw [herrors, List.mem_singleton] at herror
      exact ⟨herror ▸ herrors, hnone⟩
    · rw [hnoerror] at herror
      cases herror
  refine ⟨?_, ?_, before, after, hattempts, hattempts', ?_, ?_⟩
  · rw [htallies'.declarations, htallies.declarations, hattempts, hattempts', declarationsOf_append,
      declarationsOf_append, declarationsOf_cons, hnone, List.nil_append]
  · rw [htallies.attempted, htallies'.attempted, hattempts, hattempts', List.length_append,
      List.length_append, List.length_cons, Nat.add_assoc]
  · rw [htallies.errors, hattempts, errorsOf_append, errorsOf_cons, herrors, List.singleton_append]
  · rw [htallies'.errors, hattempts', errorsOf_append]

/-- Whatever a definition attempts has an address. If it fails and the entry at its address is
removed, be it from the definition, from a group or from a map at any depth, then the declarations
stay, and of the errors just this one goes. So if there are declarations, then both definitions
compile, to the same rules and the same table, and just this error is not listed any more. -/
theorem compileNamespace_eraseAt (options : Options) (d : Definition) :
    (∀ a, a ∈ d.attempts ↔ ∃ address, d.attemptAt? address = some a) ∧
    ∀ address a error, d.attemptAt? address = some a → error ∈ (a.expand options).errors →
      let e := expandDefinition options d
      let e' := expandDefinition options (d.eraseAt address)
      e'.declarations = e.declarations ∧ e.attempted = e'.attempted + 1 ∧
      ∃ before after, d.attempts = before ++ a :: after ∧
        (d.eraseAt address).attempts = before ++ after ∧
        e.errors = errorsOf options before ++ error :: errorsOf options after ∧
        e'.errors = errorsOf options before ++ errorsOf options after ∧
        (e.declarations ≠ [] → ∀ name, ∃ c c',
          compileNamespace options name d = .ok c ∧
          compileNamespace options name (d.eraseAt address) = .ok c' ∧
          c'.rules = c.rules ∧ c'.table = c.table ∧
          c.errors = e.errors.map (⟨name, ·⟩) ∧ c'.errors = e'.errors.map (⟨name, ·⟩)) := by
  refine ⟨fun a => Definition.mem_attempts_iff, ?_⟩
  intro address a error hat herror e e'
  obtain ⟨hdeclarations, hattempted, before, after, hbefore, hafter, herrors, herrors'⟩ :=
    expandDefinition_eraseAt hat herror
  refine ⟨hdeclarations, hattempted, before, after, hbefore, hafter, herrors, herrors', ?_⟩
  intro hsome name
  -- With a declaration left, neither of the two compilations fails.
  have hok : e.failure? = none := (tallies_expandDefinition options d).failure?_eq_none_iff.2
    fun hfailed => hsome hfailed.2
  have hok' : e'.failure? = none := (tallies_expandDefinition options _).failure?_eq_none_iff.2
    fun hfailed => hsome (hdeclarations ▸ hfailed.2)
  refine ⟨_, _, compileNamespace_of_not_failure? hok name,
    compileNamespace_of_not_failure? hok' name, ?_, ?_, rfl, rfl⟩
  · simp only [compileDeclarations, hdeclarations]
  · simp only [compileDeclarations, hdeclarations]

/-- A call that is not closed, under a condition in a group, before another one: without the first
the second is still reported, and the rules and the table are the same. -/
theorem compileNamespace_eraseAt_hover :
    let d : Definition := .ofEntries
      [("::before", .conditional
        [("color", .conditional [("default", .text "red"), (":hover", .text "rgb(0")])]),
        ("width", .text "calc(1px")]
    let hover : StyleError := .malformed "color" "rgb(0" .unclosedCall
    let width : StyleError := .malformed "width" "calc(1px" .unclosedCall
    d.attemptAt? [0, 0, 1] =
        some (.leaf "color" [.ofKey "::before", .ofKey ":hover"] (.text "rgb(0")) ∧
      (expandDefinition {} d).errors = [hover, width] ∧
      (expandDefinition {} (d.eraseAt [0, 0, 1])).errors = [width] ∧
      ∃ c c', compileNamespace {} "a" d = .ok c ∧
        compileNamespace {} "a" (d.eraseAt [0, 0, 1]) = .ok c' ∧
        c'.rules = c.rules ∧ c'.table = c.table := by
  intro d hover width
  have hat : d.attemptAt? [0, 0, 1] =
      some (.leaf "color" [.ofKey "::before", .ofKey ":hover"] (.text "rgb(0")) := rfl
  have herrors : (expandDefinition {} d).errors = [hover, width] := by decide +kernel
  have hone : hover ∈ ((Attempt.leaf "color" [.ofKey "::before", .ofKey ":hover"]
      (.text "rgb(0")).expand {}).errors := by decide +kernel
  obtain ⟨-, -, before, after, -, -, -, -, hcompiles⟩ :=
    (compileNamespace_eraseAt {} d).2 _ _ _ hat hone
  obtain ⟨c, c', hc, hc', hrules, htable, -, -⟩ := hcompiles (by decide +kernel) "a"
  exact ⟨hat, herrors, by decide +kernel, c, c', hc, hc', hrules, htable⟩

end AtomicCss
