import AtomicCss.Condition

/-!
# Declarations

A declaration is one property with its values and the conditions under which it applies. Several
values are alternatives, the least preferred first; no value means that the property is unset.
-/

namespace AtomicCss

/-- A property with its values under the conditions of a path. -/
structure Declaration where
  /-- The dashed name of the property. -/
  property : String
  /-- The values in canonical form, the least preferred first. -/
  values : List String
  /-- The conditions, the outermost first. -/
  conditions : List Condition
deriving DecidableEq, Repr

namespace Declaration

/-- Whether the declaration unsets its property. -/
def isUnset (d : Declaration) : Bool :=
  d.values.isEmpty

/-- The text of a declaration: its conditions, its property and its values. -/
def text (d : Declaration) : String :=
  String.join (d.conditions.map fun c => c.text ++ " ") ++ d.property ++ ":" ++
    (if d.isUnset then "null" else String.intercalate ", " d.values)

end Declaration

end AtomicCss
