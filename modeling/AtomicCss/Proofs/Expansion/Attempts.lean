import AtomicCss.Expansion
import AtomicCss.Proofs.Outcome

/-!
# What an expansion attempts

What there is to expand in a definition can be told without expanding it: the leaves, each with its
property and with the conditions on the way to it, and the entries that are rejected as a whole.
Each of them has an expansion of its own, with one error or with declarations, and the expansion of
the definition is the sum of these.

* `StyleValue.leaves`, `Definition.attempts`: what there is to expand, in authored order.
* `Attempt.expand`: what an attempt gives. `Expansion.IsSingle` is that this is one error or some
  declarations.
* `Expansion.Tallies`: an expansion is the sum of what attempts give. `tallies_expandProperty` and
  `tallies_expandDefinition` say so of the expansions of properties and of definitions.
* `Expansion.Tallies.allFailed_iff`: when all attempts failed.
-/

namespace AtomicCss

/-! ### Attempts -/

/-- Something in a definition that is expanded or rejected. -/
inductive Attempt where
  /-- A value of a property that is no conditional map, under the conditions of a path. -/
  | leaf (property : String) (path : List Condition) (value : StyleValue)
  /-- An entry whose key does not fit in its place, or has no map of properties. -/
  | rejected (key : String) (reason : Unsupported)

/-- What an attempt gives on its own. -/
def Attempt.expand (options : Options) : Attempt → Expansion
  | .leaf property path value => ⟨walk options property path value⟩
  | .rejected key reason => ⟨[.dropped key (.unsupported key reason)]⟩

/-- The errors that attempts give, in order. -/
def errorsOf (options : Options) (attempts : List Attempt) : List StyleError :=
  attempts.flatMap fun a => (a.expand options).errors

/-- The declarations that attempts give, in order. -/
def declarationsOf (options : Options) (attempts : List Attempt) : List Declaration :=
  attempts.flatMap fun a => (a.expand options).declarations

/-- The path under a key of a conditional map. -/
def pathUnder (path : List Condition) (key : String) : List Condition :=
  if key = defaultKey then path else path ++ [.ofKey key]

namespace StyleValue

mutual

/-- The leaves of a value of the property, which is reached under the conditions of a path. -/
def leaves (property : String) (path : List Condition) : StyleValue → List Attempt
  | .conditional entries => entryLeaves property path entries
  | value => [.leaf property path value]

/-- The leaves of the entries of a conditional map. -/
def entryLeaves (property : String) (path : List Condition) :
    List (String × StyleValue) → List Attempt
  | [] => []
  | (key, value) :: rest =>
    leaves property (pathUnder path key) value ++ entryLeaves property path rest

end

/-- The leaves of a conditional map are those of its entries, under their paths. -/
theorem entryLeaves_eq_flatMap (property : String) (path : List Condition)
    (entries : List (String × StyleValue)) :
    entryLeaves property path entries =
      entries.flatMap fun entry => entry.2.leaves property (pathUnder path entry.1) := by
  induction entries with
  | nil => rfl
  | cons entry rest ih => rw [entryLeaves, List.flatMap_cons, ih]

end StyleValue

/-- What there is to expand under the key of a pseudo-element: the properties of a group. -/
def groupAttempts (key : String) : StyleValue → List Attempt
  | .conditional group =>
    group.flatMap fun entry => entry.2.leaves (Property.dashed entry.1) [.ofKey key]
  | other => [.rejected key (.groupValue other.kind)]

/-- What there is to expand in an entry of a definition. -/
def entryAttempts (key : String) (value : StyleValue) : List Attempt :=
  if isGroupKey key then groupAttempts key value
  else if isConditionKey key then [.rejected key .conditionKey]
  else value.leaves (Property.dashed key) []

/-- What there is to expand in a definition, in authored order. -/
def Definition.attempts (d : Definition) : List Attempt :=
  d.entries.flatMap fun entry => entryAttempts entry.1 entry.2

/-! ### Leaves give declarations -/

section Leaves

variable {options : Options} {property : String} {path : List Condition} {ds : List Declaration}

theorem targets_ne_nil (property : String) : targets property ≠ [] := by
  unfold targets
  split
  case h_1 shorthand _ => cases shorthand <;> exact List.cons_ne_nil _ _
  case h_2 => exact List.cons_ne_nil _ _

theorem Shorthand.pick_ne_nil {s : Shorthand} {parts picked : List String}
    (h : s.pick parts = some picked) : picked ≠ [] := by
  unfold Shorthand.pick at h
  split at h <;> cases h <;> exact List.cons_ne_nil _ _

/-- A shorthand value that is accepted sets at least one longhand. -/
theorem Shorthand.distribute_ne_nil {s : Shorthand} {parts : List String}
    {assigned : List (String × String)} (h : s.distribute property parts = .ok assigned) :
    assigned ≠ [] := by
  unfold Shorthand.distribute at h
  split at h
  case h_1 picked hpicked =>
    cases h
    have hlonghands : s.longhands ≠ [] := by cases s <;> exact List.cons_ne_nil _ _
    rw [Ne, List.zip_eq_nil_iff, not_or]
    exact ⟨hlonghands, Shorthand.pick_ne_nil hpicked⟩
  case h_2 => split at h <;> cases h

/-- A value of a property that is no shorthand gives a declaration or an error. -/
theorem expandPlain_ne_nil {raw : String} (h : expandPlain options property path raw = .ok ds) :
    ds ≠ [] := by
  obtain ⟨value, -, rfl⟩ := Outcome.map_eq_ok.1 h
  exact List.cons_ne_nil _ _

theorem expandParts_ne_nil {parts : List (String × String)} (hparts : parts ≠ [])
    (h : expandParts options path parts = .ok ds) : ds ≠ [] := by
  cases parts with
  | nil => exact absurd rfl hparts
  | cons part parts =>
    obtain ⟨value, -, h⟩ := Outcome.bind_eq_ok.1 h
    obtain ⟨rest, -, h⟩ := Outcome.bind_eq_ok.1 h
    cases h
    exact List.cons_ne_nil _ _

theorem expandText_ne_nil {raw : String} (h : expandText options property path raw = .ok ds) :
    ds ≠ [] := by
  unfold expandText at h
  split at h
  · exact expandPlain_ne_nil h
  · split at h
    · exact expandPlain_ne_nil h
    · unfold expandShorthand at h
      split at h
      · cases h
      · obtain ⟨assigned, hassigned, h⟩ := Outcome.bind_eq_ok.1 h
        exact expandParts_ne_nil (Shorthand.distribute_ne_nil hassigned) h

theorem expandFallbacks_ne_nil {items : List StyleValue}
    (h : expandFallbacks options property path items = .ok ds) : ds ≠ [] := by
  unfold expandFallbacks at h
  split at h
  · cases h
  · obtain ⟨values, -, h⟩ := Outcome.bind_eq_ok.1 h
    split at h
    · cases h
    · cases h
      exact List.cons_ne_nil _ _

end Leaves

/-! ### The sum of attempts -/

section

variable (options : Options) (a : Attempt) (attempts others : List Attempt)

theorem errorsOf_cons :
    errorsOf options (a :: attempts) = (a.expand options).errors ++ errorsOf options attempts :=
  List.flatMap_cons

theorem errorsOf_append :
    errorsOf options (attempts ++ others) = errorsOf options attempts ++ errorsOf options others :=
  List.flatMap_append

theorem declarationsOf_cons :
    declarationsOf options (a :: attempts) =
      (a.expand options).declarations ++ declarationsOf options attempts :=
  List.flatMap_cons

theorem declarationsOf_append :
    declarationsOf options (attempts ++ others) =
      declarationsOf options attempts ++ declarationsOf options others :=
  List.flatMap_append

end

namespace Expansion

/-- The attempts of two runs of events are counted one after the other. -/
theorem attempted_append (es fs : List Event) :
    attempted ⟨es ++ fs⟩ = attempted ⟨es⟩ + attempted ⟨fs⟩ :=
  List.countP_append

theorem errors_append (es fs : List Event) : errors ⟨es ++ fs⟩ = errors ⟨es⟩ ++ errors ⟨fs⟩ :=
  List.filterMap_append

theorem declarations_append (es fs : List Event) :
    declarations ⟨es ++ fs⟩ = declarations ⟨es⟩ ++ declarations ⟨fs⟩ :=
  List.flatMap_append

/-- Whether an expansion counts one attempt, which gave one error and no declaration, or no error
and some declarations. -/
structure IsSingle (e : Expansion) : Prop where
  /-- One attempt is counted. -/
  attempted : e.attempted = 1
  /-- There is one error, or there are declarations. -/
  outcome : (∃ error, e.errors = [error] ∧ e.declarations = []) ∨
    (e.errors = [] ∧ e.declarations ≠ [])

theorem isSingle_dropped (property : String) (error : StyleError) :
    IsSingle ⟨[.dropped property error]⟩ :=
  ⟨rfl, .inl ⟨error, rfl, rfl⟩⟩

/-- The event of a leaf counts one attempt, since a leaf that succeeds declares something. -/
theorem isSingle_leafEvent {property : String} {outcome : Except StyleError (List Declaration)}
    (h : ∀ ds, outcome = .ok ds → ds ≠ []) : IsSingle ⟨[leafEvent property outcome]⟩ := by
  cases outcome with
  | error error => exact isSingle_dropped property error
  | ok ds =>
    refine ⟨rfl, .inr ⟨rfl, ?_⟩⟩
    rw [declarations, List.flatMap_singleton]
    exact h ds rfl

/-- An expansion is the sum of what attempts give, in order, and each of them is one attempt. -/
structure Tallies (e : Expansion) (options : Options) (attempts : List Attempt) : Prop where
  /-- Each attempt gives one error or some declarations. -/
  single : ∀ a ∈ attempts, (a.expand options).IsSingle
  /-- Every attempt is counted. -/
  attempted : e.attempted = attempts.length
  /-- The errors are those of the attempts. -/
  errors : e.errors = errorsOf options attempts
  /-- The declarations are those of the attempts. -/
  declarations : e.declarations = declarationsOf options attempts

namespace Tallies

variable {options : Options} {attempts others : List Attempt} {es fs : List Event}

theorem nil : Tallies ⟨[]⟩ options [] :=
  ⟨by rintro _ ⟨⟩, rfl, rfl, rfl⟩

/-- An attempt on its own tallies with itself. -/
theorem of_isSingle {a : Attempt} (h : (a.expand options).IsSingle) :
    (a.expand options).Tallies options [a] where
  single _ hb := List.mem_singleton.1 hb ▸ h
  attempted := h.attempted
  errors := (List.flatMap_singleton _ _).symm
  declarations := (List.flatMap_singleton _ _).symm

/-- Events in a row tally with the attempts in a row. -/
theorem append (h : Tallies ⟨es⟩ options attempts) (h' : Tallies ⟨fs⟩ options others) :
    Tallies ⟨es ++ fs⟩ options (attempts ++ others) where
  single a ha := (List.mem_append.1 ha).elim (h.single a) (h'.single a)
  attempted := by rw [attempted_append, h.attempted, h'.attempted, List.length_append]
  errors := by rw [errors_append, h.errors, h'.errors, errorsOf_append]
  declarations := by
    rw [declarations_append, h.declarations, h'.declarations, declarationsOf_append]

/-- A warning on the way is no attempt. -/
theorem conditionEvents (property : String) (condition : Condition)
    (h : Tallies ⟨es⟩ options attempts) :
    Tallies ⟨AtomicCss.conditionEvents property condition ++ es⟩ options attempts := by
  unfold AtomicCss.conditionEvents
  split
  · exact h
  · exact ⟨h.single, h.attempted, h.errors, h.declarations⟩

/-- The run lemma for lists: events tally with attempts if they do for each item. -/
theorem flatMap {α : Type} {xs : List α} {events : α → List Event} {attempts : α → List Attempt}
    (h : ∀ x, Tallies ⟨events x⟩ options (attempts x)) :
    Tallies ⟨xs.flatMap events⟩ options (xs.flatMap attempts) := by
  induction xs with
  | nil => exact nil
  | cons x xs ih => exact (h x).append ih

end Tallies

end Expansion

/-! ### Expansions are sums of attempts -/

open Expansion

section Walk

variable (options : Options)

/-- A leaf is one attempt, if it never succeeds without a declaration. -/
theorem tallies_leaf {property : String} {path : List Condition} {value : StyleValue}
    (outcome : Except StyleError (List Declaration))
    (hwalk : walk options property path value = [leafEvent property outcome])
    (hleaves : value.leaves property path = [.leaf property path value])
    (h : ∀ ds, outcome = .ok ds → ds ≠ []) :
    Tallies ⟨walk options property path value⟩ options (value.leaves property path) := by
  have hsingle : ((Attempt.leaf property path value).expand options).IsSingle := by
    rw [Attempt.expand, hwalk]
    exact isSingle_leafEvent h
  rw [hleaves]
  exact .of_isSingle hsingle

mutual

/-- The walk through a value counts its leaves. The induction is on the value, and the case for a
map is that of its entries. -/
theorem tallies_walk (property : String) (path : List Condition) : ∀ value : StyleValue,
    Tallies ⟨walk options property path value⟩ options (value.leaves property path)
  | .null => by
    refine tallies_leaf options (.ok (expandNull property path)) rfl rfl ?_
    rintro _ ⟨⟩
    simpa [expandNull] using targets_ne_nil property
  | .number x => by
    refine tallies_leaf options (.ok (expandNumber options property path x)) rfl rfl ?_
    rintro _ ⟨⟩
    simpa [expandNumber] using targets_ne_nil property
  | .text _ => tallies_leaf options _ rfl rfl fun _ => expandText_ne_nil
  | .fallbacks _ => tallies_leaf options _ rfl rfl fun _ => expandFallbacks_ne_nil
  | .conditional entries => tallies_walkEntries property path entries

/-- The walk through the entries of a map counts the leaves of each. -/
theorem tallies_walkEntries (property : String) (path : List Condition) :
    ∀ entries : List (String × StyleValue),
      Tallies ⟨walkEntries options property path entries⟩ options
        (StyleValue.entryLeaves property path entries)
  | [] => Tallies.nil
  | (key, value) :: rest => by
    rw [walkEntries, StyleValue.entryLeaves, pathUnder]
    refine Tallies.append ?_ (tallies_walkEntries property path rest)
    split
    · exact tallies_walk property path value
    · exact (tallies_walk property (path ++ [.ofKey key]) value).conditionEvents _ _

end

theorem tallies_rejected (key : String) (reason : Unsupported) :
    Tallies ⟨[.dropped key (.unsupported key reason)]⟩ options [.rejected key reason] :=
  have hsingle : ((Attempt.rejected key reason).expand options).IsSingle := isSingle_dropped _ _
  .of_isSingle hsingle

/-- The walk through an entry of a definition, whichever kind its key is of. -/
theorem tallies_walkEntry (key : String) (value : StyleValue) :
    Tallies ⟨walkEntry options key value⟩ options (entryAttempts key value) := by
  unfold walkEntry entryAttempts
  split
  · cases value with
    | conditional group => exact Tallies.flatMap fun entry => tallies_walk options _ _ entry.2
    | _ => exact tallies_rejected options key _
  · split
    · exact tallies_rejected options key _
    · exact tallies_walk options _ _ value

/-- The expansion of one property counts the leaves of its value. -/
theorem tallies_expandProperty (property : String) (value : StyleValue) :
    (expandProperty options property value).Tallies options
      (value.leaves (Property.dashed property) []) :=
  tallies_walk options _ _ value

/-- The expansion of a definition counts all that there is to expand in it. -/
theorem tallies_expandDefinition (d : Definition) :
    (expandDefinition options d).Tallies options d.attempts :=
  Tallies.flatMap fun entry => tallies_walkEntry options entry.1 entry.2

end Walk

/-! ### When everything failed -/

namespace Expansion.Tallies

variable {options : Options} {attempts : List Attempt} {e : Expansion}

/-- There are no more errors than attempts, and as many exactly if nothing was declared. -/
theorem length_errors (h : e.Tallies options attempts) :
    e.errors.length ≤ attempts.length ∧
      (e.errors.length = attempts.length ↔ e.declarations = []) := by
  rw [h.errors, h.declarations]
  have hsingle := h.single
  clear h
  induction attempts with
  | nil => exact ⟨Nat.le_refl _, iff_of_true rfl rfl⟩
  | cons a rest ih =>
    obtain ⟨hle, hiff⟩ := ih fun b hb => hsingle b (List.mem_cons_of_mem a hb)
    rw [errorsOf_cons, declarationsOf_cons]
    rcases (hsingle a List.mem_cons_self).outcome with ⟨error, herrors, hnone⟩ | ⟨hnone, hsome⟩
    · rw [herrors, hnone, List.singleton_append, List.length_cons, List.length_cons,
        List.nil_append, Nat.succ_inj]
      exact ⟨Nat.succ_le_succ hle, hiff⟩
    · rw [hnone, List.nil_append, List.length_cons]
      refine ⟨Nat.le_succ_of_le hle, iff_of_false (by omega) ?_⟩
      exact List.append_ne_nil_of_left_ne_nil hsome _

/-- All attempts failed exactly if there were some and nothing was declared. -/
theorem allFailed_iff (h : e.Tallies options attempts) :
    e.allFailed ↔ 0 < e.attempted ∧ e.declarations = [] := by
  simp [allFailed, h.attempted, h.length_errors.2]

/-- If nothing was declared, the first error is that of the first attempt. -/
theorem exists_head?_errors (h : e.Tallies options attempts) (hattempted : 0 < e.attempted)
    (hnone : e.declarations = []) :
    ∃ first rest error, attempts = first :: rest ∧ (first.expand options).errors = [error] ∧
      e.errors.head? = some error := by
  rw [h.attempted] at hattempted
  obtain ⟨first, rest, rfl⟩ := List.exists_cons_of_length_pos hattempted
  have hfirst : (first.expand options).declarations = [] := by
    rw [h.declarations, declarationsOf_cons] at hnone
    exact (List.append_eq_nil_iff.1 hnone).1
  rcases (h.single first List.mem_cons_self).outcome with ⟨error, herrors, -⟩ | ⟨-, hsome⟩
  · refine ⟨first, rest, error, rfl, herrors, ?_⟩
    rw [h.errors, errorsOf_cons, herrors]
    rfl
  · exact absurd hfirst hsome

end Expansion.Tallies

end AtomicCss
