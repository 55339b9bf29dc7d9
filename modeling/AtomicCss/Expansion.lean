import AtomicCss.Declaration
import AtomicCss.Definition
import AtomicCss.Priority
import AtomicCss.Property.Shorthand
import AtomicCss.Value.Normal

/-!
# Expanding definitions

A definition is a tree: properties have values under conditions, which nest. Expansion walks over
the tree and lists what it meets, in order. A leaf of the tree gives declarations under the
conditions on its way, one for each longhand if its property is a shorthand, or an error; either way
the walk goes on.

* `expandValue` walks over the value of one property, `expandDefinition` over a definition.
* The views `declarations`, `errors`, `attempted` and `warnings` of an expansion are read off the
  list of events, so that each of them is a sum over the parts of a definition.
-/

namespace AtomicCss

/-- What the walk over a definition meets. -/
inductive Event where
  /-- A selector without a weight of its own, on the way to values of the property. -/
  | unrecognized (property : String) (condition : Condition)
  /-- A leaf that gave declarations. -/
  | expanded (declarations : List Declaration)
  /-- A leaf or an entry under the given name that gave none. -/
  | dropped (property : String) (error : StyleError)
deriving DecidableEq, Repr

namespace Event

/-- The declarations of an event. -/
def declarations : Event → List Declaration
  | .expanded declarations => declarations
  | _ => []

/-- The error of an event. -/
def error? : Event → Option StyleError
  | .dropped _ error => some error
  | _ => none

/-- Whether the event is about a leaf or an entry that was dropped as a whole. -/
def isAttempt : Event → Bool
  | .unrecognized _ _ => false
  | _ => true

/-- The warning for an event. -/
def warning? : Event → Option String
  | .unrecognized property condition =>
    some ("unrecognized selector `" ++ condition.text ++ "` on `" ++ property ++
      "`; compiled with the generic low priority")
  | .expanded _ => none
  | .dropped property error => some ("dropping `" ++ property ++ "`: " ++ error.message)

end Event

/-- What the walk over a definition, or a part of it, has met. -/
structure Expansion where
  /-- The events in order. -/
  events : List Event
deriving DecidableEq, Repr

namespace Expansion

/-- The declarations in order. -/
def declarations (e : Expansion) : List Declaration :=
  e.events.flatMap Event.declarations

/-- The errors in order. -/
def errors (e : Expansion) : List StyleError :=
  e.events.filterMap Event.error?

/-- The number of leaves and of entries that were dropped as a whole. -/
def attempted (e : Expansion) : Nat :=
  e.events.countP Event.isAttempt

/-- The warnings in order. -/
def warnings (e : Expansion) : List String :=
  e.events.filterMap Event.warning?

/-- Whether something was attempted and everything failed. -/
def allFailed (e : Expansion) : Bool :=
  0 < e.attempted && e.errors.length == e.attempted

end Expansion

/-! ### Leaves -/

/-- The shorthand with the given name, unless it is a custom property. -/
def shorthandFor? (property : String) : Option Shorthand :=
  if Property.isCustom property then none else Shorthand.ofProperty? property

/-- The properties that a value of the given property sets. -/
def targets (property : String) : List String :=
  match shorthandFor? property with
  | some shorthand => shorthand.longhands
  | none => [property]

/-- Unsets a property. -/
def expandNull (property : String) (path : List Condition) : List Declaration :=
  (targets property).map fun target => ⟨target, [], path⟩

/-- Gives a property a number. -/
def expandNumber (options : Options) (property : String) (path : List Condition) (x : Float) :
    List Declaration :=
  (targets property).map fun target => ⟨target, [normalNumber options target x], path⟩

/-- Gives a property that is no shorthand a value. -/
def expandPlain (options : Options) (property : String) (path : List Condition) (raw : String) :
    Except StyleError (List Declaration) :=
  (normalValue options property raw).map fun value => [⟨property, [value], path⟩]

/-- Gives longhands their parts. -/
def expandParts (options : Options) (path : List Condition) :
    List (String × String) → Except StyleError (List Declaration)
  | [] => .ok []
  | (longhand, part) :: rest => do
    let value ← normalValue options longhand part
    let declarations ← expandParts options path rest
    return ⟨longhand, [value], path⟩ :: declarations

/-- Gives the longhands of a shorthand the parts of a value. -/
def expandShorthand (options : Options) (shorthand : Shorthand) (property : String)
    (path : List Condition) (raw : String) : Except StyleError (List Declaration) :=
  match splitValue raw with
  | .error failure => .error (.malformed property raw (.unreadable failure))
  | .ok parts => do
    let assigned ← shorthand.distribute property parts
    expandParts options path assigned

/-- Whether the value gives corners two radii each, which longhands cannot. -/
def isElliptic (property raw : String) : Bool :=
  property == "border-radius" && hasTopLevelSlash raw

/-- Gives a property a value. -/
def expandText (options : Options) (property : String) (path : List Condition) (raw : String) :
    Except StyleError (List Declaration) :=
  match shorthandFor? property with
  | none => expandPlain options property path raw
  | some shorthand =>
    if isElliptic property raw then expandPlain options property path raw
    else expandShorthand options shorthand property path raw

/-- The canonical form of a fallback, which must be a text or a number. -/
def normalFallback (options : Options) (property : String) :
    StyleValue → Except StyleError String
  | .text raw => normalValue options property raw
  | .number x => .ok (normalNumber options property x)
  | value => .error (.unsupported property (.insideFallbacks value.kind))

/-- Gives a property alternatives. -/
def expandFallbacks (options : Options) (property : String) (path : List Condition)
    (items : List StyleValue) : Except StyleError (List Declaration) :=
  match shorthandFor? property with
  | some _ => .error (.fallbacksOnShorthand property)
  | none => do
    let values ← items.mapM (normalFallback options property)
    if values.isEmpty then .error (.unsupported property .emptyFallbacks)
    else return [⟨property, values, path⟩]

/-! ### The walk -/

/-- The event for what a leaf gave. -/
def leafEvent (property : String) : Except StyleError (List Declaration) → Event
  | .ok declarations => .expanded declarations
  | .error error => .dropped property error

/-- The event for a condition on the way, if its selector has no weight of its own. -/
def conditionEvents (property : String) (condition : Condition) : List Event :=
  if condition.isRecognized then [] else [.unrecognized property condition]

/-- The key of a conditional map whose value applies under no further condition. -/
def defaultKey : String := "default"

mutual

/-- Walks over a value of the property, whose name is dashed, under the conditions of a path. -/
def walk (options : Options) (property : String) (path : List Condition) :
    StyleValue → List Event
  | .null => [.expanded (expandNull property path)]
  | .number x => [.expanded (expandNumber options property path x)]
  | .text raw => [leafEvent property (expandText options property path raw)]
  | .fallbacks items => [leafEvent property (expandFallbacks options property path items)]
  | .conditional entries => walkEntries options property path entries

/-- Walks over the entries of a conditional map. -/
def walkEntries (options : Options) (property : String) (path : List Condition) :
    List (String × StyleValue) → List Event
  | [] => []
  | (key, value) :: rest =>
    (if key = defaultKey then walk options property path value
      else
        conditionEvents property (.ofKey key) ++
          walk options property (path ++ [.ofKey key]) value) ++
      walkEntries options property path rest

end

/-- Expands the value of one property. -/
def expandProperty (options : Options) (property : String) (value : StyleValue) : Expansion :=
  ⟨walk options (Property.dashed property) [] value⟩

/-- Whether a key opens a group of properties of a pseudo-element. -/
def isGroupKey (key : String) : Bool :=
  Text.startsWith key "::"

/-- Whether a key is a condition, which no property's name can be. -/
def isConditionKey (key : String) : Bool :=
  Text.startsWith key ":" || Text.startsWith key "@"

/-- Walks over the properties of a pseudo-element. -/
def walkGroup (options : Options) (key : String) (group : List (String × StyleValue)) :
    List Event :=
  group.flatMap fun entry => walk options (Property.dashed entry.1) [.ofKey key] entry.2

/-- Walks over an entry of a definition: a property, or a group of properties of a
pseudo-element. -/
def walkEntry (options : Options) (key : String) (value : StyleValue) : List Event :=
  if isGroupKey key then
    match value with
    | .conditional group => walkGroup options key group
    | other => [.dropped key (.unsupported key (.groupValue other.kind))]
  else if isConditionKey key then [.dropped key (.unsupported key .conditionKey)]
  else walk options (Property.dashed key) [] value

/-- Expands a definition. -/
def expandDefinition (options : Options) (d : Definition) : Expansion :=
  ⟨d.entries.flatMap fun entry => walkEntry options entry.1 entry.2⟩

end AtomicCss
