import AtomicCss.Proofs.Expansion.Attempts

/-!
# The default key

The walk over a value takes a condition off every key of a conditional map but the default one. So
a value may be put under the default key, wherever it stands, and the conditions of a declaration
are the other keys on the way to its leaf.

* `StyleValue.Place`: a place in a value that is reached through conditional maps.
* `StyleValue.Place.walk_fill`: values that are walked over alike may stand for each other in every
  place.
* `StyleValue.keyedLeaves`: the leaves of a value, each with the keys on the way to it.
* `declarations_walk`: what a value declares, leaf by leaf.
* `expandProperty_default`: the default key changes nothing, and all other keys are conditions.
-/

namespace AtomicCss

namespace StyleValue

/-! ### Places in values -/

/-- A place in a value: the value itself, or a place in the value of one of its entries. -/
inductive Place where
  /-- The value as a whole. -/
  | root
  /-- A place under a key, which has entries before and after it. -/
  | under (before : List (String × StyleValue)) (key : String) (inner : Place)
      (after : List (String × StyleValue))

/-- The value that has the given one in this place. -/
def Place.fill : Place → StyleValue → StyleValue
  | .root, value => value
  | .under before key inner after, value =>
    .conditional (before ++ (key, inner.fill value) :: after)

/-- A value under the default key. -/
def byDefault (value : StyleValue) : StyleValue :=
  .conditional [(defaultKey, value)]

end StyleValue

open StyleValue

section Walk

variable {options : Options} {property : String}

theorem walkEntries_append (path : List Condition) (entries others : List (String × StyleValue)) :
    walkEntries options property path (entries ++ others) =
      walkEntries options property path entries ++ walkEntries options property path others := by
  induction entries with
  | nil => rfl
  | cons entry entries ih =>
    rw [List.cons_append, walkEntries, walkEntries, ih, List.append_assoc]

/-- A value under the default key is walked through as if it stood there itself. -/
theorem walk_byDefault (path : List Condition) (value : StyleValue) :
    walk options property path value.byDefault = walk options property path value := by
  rw [byDefault, walk, walkEntries, if_pos rfl, walkEntries, List.append_nil]

/-- Values that are walked over alike under every path may stand for each other in every place. -/
theorem StyleValue.Place.walk_fill {value value' : StyleValue}
    (h : ∀ path, walk options property path value = walk options property path value')
    (place : Place) (path : List Condition) :
    walk options property path (place.fill value) =
      walk options property path (place.fill value') := by
  induction place generalizing path with
  | root => exact h path
  | under before key inner after ih =>
    rw [fill, fill, walk, walk, walkEntries_append, walkEntries_append, walkEntries, walkEntries,
      ih path, ih (path ++ [Condition.ofKey key])]

end Walk

/-! ### Leaves and their keys -/

/-- A value that is no conditional map, with the keys on the way to it, the outermost first. -/
structure KeyedLeaf where
  /-- The keys on the way. -/
  keys : List String
  /-- The value. -/
  value : StyleValue

/-- The conditions that keys stand for. -/
def conditionsOf (keys : List String) : List Condition :=
  (keys.filter (· != defaultKey)).map .ofKey

/-- The declaration under other conditions. -/
def Declaration.under (conditions : List Condition) (d : Declaration) : Declaration :=
  { d with conditions }

namespace StyleValue

mutual

/-- The leaves of a value, which is reached by the given keys. -/
def keyedLeaves (keys : List String) : StyleValue → List KeyedLeaf
  | .conditional entries => keyedEntryLeaves keys entries
  | value => [⟨keys, value⟩]

/-- The leaves of the entries of a conditional map. -/
def keyedEntryLeaves (keys : List String) : List (String × StyleValue) → List KeyedLeaf
  | [] => []
  | (key, value) :: rest => keyedLeaves (keys ++ [key]) value ++ keyedEntryLeaves keys rest

end

end StyleValue

/-- The default key adds no condition, and any other key adds one. -/
theorem conditionsOf_concat (keys : List String) (key : String) :
    conditionsOf (keys ++ [key]) =
      if key = defaultKey then conditionsOf keys else conditionsOf keys ++ [.ofKey key] := by
  rw [conditionsOf, List.filter_append, List.map_append]
  split
  · next hkey => simp [conditionsOf, hkey]
  · next hkey => simp [conditionsOf, hkey]

/-! ### Leaves under a path -/

section Leaves

variable (options : Options) (property : String) (path : List Condition)

/-- The path only decides under which conditions a property is unset. -/
theorem expandNull_under :
    expandNull property path = (expandNull property []).map (.under path) := by
  rw [expandNull, expandNull, List.map_map]
  rfl

theorem expandNumber_under (x : Float) :
    expandNumber options property path x =
      (expandNumber options property [] x).map (.under path) := by
  rw [expandNumber, expandNumber, List.map_map]
  rfl

/-- Nor does the path decide whether a text is accepted, if the property is no shorthand. -/
theorem expandPlain_under (raw : String) :
    expandPlain options property path raw =
      (expandPlain options property [] raw).map (List.map (.under path)) := by
  unfold expandPlain
  cases normalValue options property raw <;> rfl

theorem expandParts_under (parts : List (String × String)) :
    expandParts options path parts =
      (expandParts options [] parts).map (List.map (.under path)) := by
  induction parts with
  | nil => rfl
  | cons part parts ih =>
    rw [expandParts, expandParts, ih]
    cases normalValue options part.1 part.2 with
    | error => rfl
    | ok value => cases expandParts options [] parts <;> rfl

theorem expandText_under (raw : String) :
    expandText options property path raw =
      (expandText options property [] raw).map (List.map (.under path)) := by
  unfold expandText
  split
  · exact expandPlain_under options property path raw
  · next shorthand _ =>
    split
    · exact expandPlain_under options property path raw
    · unfold expandShorthand
      cases splitValue raw with
      | error => rfl
      | ok parts =>
        show (shorthand.distribute property parts).bind _ =
          ((shorthand.distribute property parts).bind _).map _
        cases shorthand.distribute property parts with
        | error => rfl
        | ok assigned => exact expandParts_under options path assigned

theorem expandFallbacks_under (items : List StyleValue) :
    expandFallbacks options property path items =
      (expandFallbacks options property [] items).map (List.map (.under path)) := by
  unfold expandFallbacks
  split
  · rfl
  · show (items.mapM (normalFallback options property)).bind _ =
      ((items.mapM (normalFallback options property)).bind _).map _
    cases items.mapM (normalFallback options property) with
    | error => rfl
    | ok values => cases values <;> rfl

end Leaves

/-- The check of a condition declares nothing. -/
theorem declarations_conditionEvents (property : String) (condition : Condition) :
    Expansion.declarations ⟨conditionEvents property condition⟩ = [] := by
  unfold conditionEvents
  split <;> rfl

/-! ### What a value declares -/

section Declarations

variable (options : Options) (property : String)

/-- What a leaf declares on its own, under the conditions that its keys stand for. -/
def KeyedLeaf.declarations (leaf : KeyedLeaf) : List Declaration :=
  (expandProperty options property leaf.value).declarations.map (.under (conditionsOf leaf.keys))

/-- A leaf of the walk declares under its path what it declares on its own. -/
theorem declarations_leaf {keys : List String} {value : StyleValue}
    (outcome : List Condition → Except StyleError (List Declaration))
    (hwalk : ∀ path, walk options (Property.dashed property) path value =
      [leafEvent (Property.dashed property) (outcome path)])
    (hleaves : value.keyedLeaves keys = [⟨keys, value⟩])
    (hunder : outcome (conditionsOf keys) =
      (outcome []).map (List.map (.under (conditionsOf keys)))) :
    Expansion.declarations ⟨walk options (Property.dashed property) (conditionsOf keys) value⟩ =
      (value.keyedLeaves keys).flatMap (KeyedLeaf.declarations options property) := by
  rw [hleaves, List.flatMap_singleton, KeyedLeaf.declarations, expandProperty, hwalk, hwalk,
    hunder]
  cases outcome [] with
  | error error => rfl
  | ok ds => simp [Expansion.declarations, leafEvent, Event.declarations, Except.map]

mutual

/-- A value declares what its leaves declare, each under the conditions that its keys stand for. -/
theorem declarations_walk (keys : List String) : ∀ value : StyleValue,
    Expansion.declarations ⟨walk options (Property.dashed property) (conditionsOf keys) value⟩ =
      (value.keyedLeaves keys).flatMap (KeyedLeaf.declarations options property)
  | .null =>
    declarations_leaf options property (fun path => .ok (expandNull _ path)) (fun _ => rfl) rfl
      (congrArg Except.ok (expandNull_under _ _))
  | .number x =>
    declarations_leaf options property (fun path => .ok (expandNumber options _ path x))
      (fun _ => rfl) rfl (congrArg Except.ok (expandNumber_under options _ _ x))
  | .text raw =>
    declarations_leaf options property (expandText options _ · raw) (fun _ => rfl) rfl
      (expandText_under options _ _ raw)
  | .fallbacks items =>
    declarations_leaf options property (expandFallbacks options _ · items) (fun _ => rfl) rfl
      (expandFallbacks_under options _ _ items)
  | .conditional entries => declarations_walkEntries keys entries

/-- The entries of a map declare what their leaves declare on their own, under the conditions that
the keys stand for. -/
theorem declarations_walkEntries (keys : List String) :
    ∀ entries : List (String × StyleValue),
      Expansion.declarations
          ⟨walkEntries options (Property.dashed property) (conditionsOf keys) entries⟩ =
        (keyedEntryLeaves keys entries).flatMap (KeyedLeaf.declarations options property)
  | [] => rfl
  | (key, value) :: rest => by
    rw [walkEntries, keyedEntryLeaves, Expansion.declarations_append, List.flatMap_append,
      declarations_walkEntries keys rest, ← declarations_walk (keys ++ [key]) value,
      conditionsOf_concat]
    congr 1
    split
    · rfl
    · rw [Expansion.declarations_append, declarations_conditionEvents, List.nil_append]

end

end Declarations

/-- A value may be put under the default key in every place without a change to the expansion of its
property. What is declared is what the leaves of the value declare on their own, in order, each
under the conditions that the keys on the way to it stand for, the default ones left out. -/
theorem expandProperty_default (options : Options) (property : String) :
    (∀ (place : Place) (value : StyleValue),
      expandProperty options property (place.fill value.byDefault) =
        expandProperty options property (place.fill value)) ∧
    ∀ value : StyleValue, (expandProperty options property value).declarations =
      (value.keyedLeaves []).flatMap fun leaf =>
        (expandProperty options property leaf.value).declarations.map fun d =>
          { d with conditions := (leaf.keys.filter (· != defaultKey)).map .ofKey } := by
  refine ⟨fun place value => ?_, declarations_walk options property []⟩
  exact congrArg Expansion.mk (place.walk_fill (fun path => walk_byDefault path value) [])

end AtomicCss
