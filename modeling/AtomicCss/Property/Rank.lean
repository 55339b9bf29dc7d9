import AtomicCss.Property.Name

/-!
# Ranks of properties

A shorthand sets several properties at once, and what it sets must not override a property that is
set on its own. So shorthands rank below the properties they set, and shorthands of shorthands
below both.
-/

namespace AtomicCss.Property

/-- Shorthands that set other shorthands. -/
def shorthandsOfShorthands : List String :=
  ["all", "border", "border-block", "border-color", "border-inline", "border-style",
    "border-width", "font", "grid", "inset", "margin", "mask", "padding", "scroll-margin",
    "scroll-padding"]

/-- Shorthands that set no other shorthand. -/
def shorthandsOfLonghands : List String :=
  ["animation", "background", "border-block-end", "border-block-start", "border-bottom",
    "border-image", "border-inline-end", "border-inline-start", "border-left", "border-radius",
    "border-right", "border-top", "column-rule", "columns", "contain-intrinsic-size", "container",
    "flex", "flex-flow", "font-variant", "gap", "grid-area", "grid-column", "grid-row",
    "grid-template", "inset-block", "inset-inline", "list-style", "margin-block", "margin-inline",
    "mask-border", "offset", "outline", "overflow", "padding-block", "padding-inline",
    "place-content", "place-items", "place-self", "scroll-margin-block", "scroll-margin-inline",
    "scroll-padding-block", "scroll-padding-inline", "text-decoration", "text-emphasis",
    "transition"]

/-- The rank of a property: 0 for custom properties and shorthands of shorthands, 1 for other
shorthands, 2 for all else. -/
def rank (property : String) : Nat :=
  if isCustom property || shorthandsOfShorthands.contains property then 0
  else if shorthandsOfLonghands.contains property then 1
  else 2

end AtomicCss.Property
