import AtomicCss.Proofs.Compile.Failure
import AtomicCss.Proofs.Definition.Override
import Mathlib.Data.List.Basic

/-!
# Groups turned inside out

A group gives properties values under a pseudo-element. The same can be said property by property:
each gets a conditional map whose one key is the pseudo-element. The two spellings attempt the same,
under the same paths and in the same order, and a compilation depends on nothing else.

* `Expansion.Tallies.agree`: expansions that are the sum of the same attempts.
* `compileNamespace_eq_of_attempts`: definitions that attempt the same compile to the same.
* `attempts_group`: a group attempts what its members attempt with the pseudo-element inside.
* `compileNamespace_group`: the two spellings agree.
-/

namespace AtomicCss

/-! ### Definitions that attempt the same -/

namespace Expansion.Tallies

variable {options : Options} {attempts : List Attempt} {e e' : Expansion}

/-- Expansions that are the sum of the same attempts differ in their warnings at most. -/
theorem agree (h : e.Tallies options attempts) (h' : e'.Tallies options attempts) :
    e.declarations = e'.declarations ∧ e.errors = e'.errors ∧ e.attempted = e'.attempted :=
  ⟨h.declarations.trans h'.declarations.symm, h.errors.trans h'.errors.symm,
    h.attempted.trans h'.attempted.symm⟩

end Expansion.Tallies

section

variable {options : Options} {d d' : Definition}

/-- The expansion of a definition depends on the attempts it makes and on nothing else. -/
theorem expandDefinition_agree (h : d.attempts = d'.attempts) :
    let e := expandDefinition options d
    let e' := expandDefinition options d'
    e.declarations = e'.declarations ∧ e.errors = e'.errors ∧ e.attempted = e'.attempted :=
  (tallies_expandDefinition options d).agree (h ▸ tallies_expandDefinition options d')

/-- Definitions that attempt the same compile to the same, or fail with the same error. -/
theorem compileNamespace_eq_of_attempts (h : d.attempts = d'.attempts) (name : String) :
    compileNamespace options name d = compileNamespace options name d' := by
  obtain ⟨hdeclarations, herrors, hattempted⟩ := @expandDefinition_agree options d d' h
  have hall : (expandDefinition options d).allFailed = (expandDefinition options d').allFailed := by
    rw [Expansion.allFailed, Expansion.allFailed, herrors, hattempted]
  have hfailure :
      (expandDefinition options d).failure? = (expandDefinition options d').failure? := by
    rw [Expansion.failure?, Expansion.failure?, hall, herrors]
  simp only [compileNamespace, hfailure, hdeclarations, herrors]

end

/-! ### Groups -/

section

variable {group : String}

/-- The key of a group is a condition, and so neither a property nor the default. -/
theorem isConditionKey_of_isGroupKey (h : isGroupKey group = true) :
    isConditionKey group = true := by
  have hcolon : ":".toList <+: "::".toList := ⟨[':'], by decide⟩
  have hmark : Text.startsWith group ":" = true :=
    Text.startsWith_iff.2 (hcolon.trans (Text.startsWith_iff.1 h))
  rw [isConditionKey, hmark, Bool.true_or]

theorem isGroupKey_eq_false {key : String} (h : isConditionKey key = false) :
    isGroupKey key = false := by
  cases hgroup : isGroupKey key with
  | false => rfl
  | true =>
    rw [isConditionKey_of_isGroupKey hgroup] at h
    cases h

/-- A group key adds one condition at the end of the path. -/
theorem pathUnder_group (h : isGroupKey group = true) (path : List Condition) :
    pathUnder path group = path ++ [.ofKey group] := by
  have hne : group ≠ defaultKey := by
    rintro rfl
    exact absurd h (by decide)
  rw [pathUnder, if_neg hne]

/-- A property with the pseudo-element as its one condition attempts what it does in the group. -/
theorem entryAttempts_nested (hgroup : isGroupKey group = true) {key : String}
    (hkey : isConditionKey key = false) (value : StyleValue) :
    entryAttempts key (.conditional [(group, value)]) =
      value.leaves (Property.dashed key) [.ofKey group] := by
  rw [entryAttempts, isGroupKey_eq_false hkey, hkey, if_neg Bool.false_ne_true,
    if_neg Bool.false_ne_true, StyleValue.leaves, StyleValue.entryLeaves, StyleValue.entryLeaves,
    pathUnder_group hgroup, List.nil_append, List.append_nil]

/-- A group attempts what its members attempt with the pseudo-element inside. -/
theorem attempts_group (hgroup : isGroupKey group = true) {pairs : List (String × StyleValue)}
    (hpairs : ∀ p ∈ pairs, isConditionKey p.1 = false) :
    entryAttempts group (.conditional pairs) =
      (pairs.map fun p => (p.1, StyleValue.conditional [(group, p.2)])).flatMap
        fun entry => entryAttempts entry.1 entry.2 := by
  rw [entryAttempts, if_pos hgroup, groupAttempts, List.flatMap_map]
  refine List.flatMap_congr fun p hp => ?_
  exact (entryAttempts_nested hgroup (hpairs p hp) p.2).symm

end

/-- A group of a pseudo-element says the same as its properties do one by one, each with the
pseudo-element as its one condition: both spellings give the same declarations in the same order,
the same errors and as many attempts, and compile to the same. -/
theorem compileNamespace_group (options : Options) {group : String}
    (hgroup : isGroupKey group = true) {pairs : List (String × StyleValue)}
    (hdistinct : (Keyed.keys pairs).Nodup)
    (hpairs : ∀ p ∈ pairs, isConditionKey p.1 = false) :
    let inside := pairs.map fun p => (p.1, StyleValue.conditional [(group, p.2)])
    let grouped := Definition.ofEntries [(group, .conditional pairs)]
    let nested := Definition.ofEntries inside
    let e := expandDefinition options grouped
    let e' := expandDefinition options nested
    grouped.entries = [(group, .conditional pairs)] ∧ nested.entries = inside ∧
    e.declarations = e'.declarations ∧ e.errors = e'.errors ∧ e.attempted = e'.attempted ∧
    ∀ name, compileNamespace options name grouped = compileNamespace options name nested := by
  intro inside grouped nested e e'
  have hgrouped : grouped.entries = [(group, .conditional pairs)] := rfl
  have hkeys : Keyed.keys inside = Keyed.keys pairs := by simp [inside, Keyed.keys]
  have hnested : nested.entries = inside := Definition.entries_ofEntries (hkeys ▸ hdistinct)
  -- Only the attempts have to be compared: all else follows from them.
  have hattempts : grouped.attempts = nested.attempts := by
    rw [Definition.attempts, Definition.attempts, hgrouped, hnested, List.flatMap_singleton]
    exact attempts_group hgroup hpairs
  obtain ⟨hdeclarations, herrors, hattempted⟩ := @expandDefinition_agree options _ _ hattempts
  exact ⟨hgrouped, hnested, hdeclarations, herrors, hattempted,
    compileNamespace_eq_of_attempts hattempts⟩

/-- Two sides of a shorthand, a call that is not closed and a property that is unset under a further
condition: each spelling lists the one error and declares the rest. -/
theorem compileNamespace_group_before :
    let pairs : List (String × StyleValue) :=
      [("paddingInline", .text "1px 2px"), ("width", .text "calc(1px"),
        ("color", .conditional [("default", .text "red"), (":hover", .null)])]
    let grouped := Definition.ofEntries [("::before", .conditional pairs)]
    let nested := Definition.ofEntries
      (pairs.map fun p => (p.1, StyleValue.conditional [("::before", p.2)]))
    let e := expandDefinition {} nested
    e.errors = [.malformed "width" "calc(1px" .unclosedCall] ∧
    e.declarations.map (·.property) = ["padding-start", "padding-end", "color", "color"] ∧
    (expandDefinition {} grouped).declarations = e.declarations ∧
    compileNamespace {} "a" grouped = compileNamespace {} "a" nested := by
  intro pairs grouped nested e
  have hall : (pairs.all fun p => !isConditionKey p.1) = true := by decide
  have hpairs : ∀ p ∈ pairs, isConditionKey p.1 = false := by simpa using hall
  obtain ⟨-, -, hdeclarations, -, -, hcompiles⟩ :=
    compileNamespace_group {} (by decide : isGroupKey "::before" = true)
      (by decide : (Keyed.keys pairs).Nodup) hpairs
  exact ⟨by decide +kernel, by decide +kernel, hdeclarations, hcompiles "a"⟩

end AtomicCss
