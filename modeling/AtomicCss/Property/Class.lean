import AtomicCss.Property.Name

/-!
# Classes of properties

The properties whose values are treated in a way of their own, and the unit that a bare number
takes.
-/

namespace AtomicCss.Property

/-- Properties whose numbers have no unit. -/
def unitless : List String :=
  ["animation-iteration-count", "aspect-ratio", "border-image-outset", "border-image-slice",
    "border-image-width", "box-flex", "box-flex-group", "box-ordinal-group", "column-count",
    "columns", "fill-opacity", "flex", "flex-grow", "flex-negative", "flex-order",
    "flex-positive", "flex-shrink", "flood-opacity", "font-size-adjust", "font-weight",
    "grid-area", "grid-column", "grid-column-end", "grid-column-span", "grid-column-start",
    "grid-row", "grid-row-end", "grid-row-span", "grid-row-start", "initial-letter",
    "line-clamp", "line-height", "math-depth", "opacity", "order", "orphans", "scale",
    "stop-opacity", "stroke-dasharray", "stroke-dashoffset", "stroke-miterlimit",
    "stroke-opacity", "stroke-width", "tab-size", "widows", "z-index", "zoom",
    "-webkit-line-clamp"]

/-- Properties whose numbers are durations in milliseconds. -/
def timed : List String :=
  ["animation-delay", "animation-duration", "transition-delay", "transition-duration",
    "voice-duration"]

/-- Properties whose values name other properties. -/
def listing : List String :=
  ["transition-property", "will-change"]

/-- Properties whose texts are written as strings. -/
def textual : List String :=
  ["content", "hyphenate-character"]

/-- The property whose pixel lengths may be written relative to the root. -/
def fontSize : String := "font-size"

/-- The unit that a bare number takes. -/
def numberUnit (property : String) : String :=
  if isCustom property || unitless.contains property then ""
  else if timed.contains property then "ms"
  else "px"

end AtomicCss.Property
