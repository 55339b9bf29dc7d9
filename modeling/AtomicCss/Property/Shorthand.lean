import AtomicCss.Error
import AtomicCss.Keyed

/-!
# Shorthands

A shorthand sets several longhands with one value. The parts of the value go to the edges of a box,
in the order top, end, bottom, start, or to the two ends of an axis; a part that is missing is taken
from the opposite edge, or from the only part there is.
-/

namespace AtomicCss

/-- The longhands that a shorthand sets. -/
inductive Shorthand where
  /-- The edges or the corners of a box. -/
  | box (top endward bottom startward : String)
  /-- The two ends of an axis, or two axes. -/
  | pair (first second : String)
deriving DecidableEq, Repr

namespace Shorthand

/-- The longhands in order. -/
def longhands : Shorthand → List String
  | .box top endward bottom startward => [top, endward, bottom, startward]
  | .pair first second => [first, second]

/-- The part for each longhand, if there are neither too few nor too many parts. -/
def pick : Shorthand → List String → Option (List String)
  | .box .., [all] => some [all, all, all, all]
  | .box .., [vertical, horizontal] => some [vertical, horizontal, vertical, horizontal]
  | .box .., [top, horizontal, bottom] => some [top, horizontal, bottom, horizontal]
  | .box .., [top, endward, bottom, startward] => some [top, endward, bottom, startward]
  | .pair .., [both] => some [both, both]
  | .pair .., [first, second] => some [first, second]
  | _, _ => none

/-- The longhands with their parts. The error names the given property. -/
def distribute (s : Shorthand) (property : String) (parts : List String) :
    Except StyleError (List (String × String)) :=
  match s.pick parts with
  | some picked => .ok (s.longhands.zip picked)
  | none =>
    if parts.isEmpty then .error (.malformed property "" .emptyValue)
    else
      .error (.malformed property (String.intercalate " " parts)
        (.tooManyParts s.longhands.length parts.length))

/-- The shorthands by name. -/
def table : List (String × Shorthand) :=
  [("margin", .box "margin-top" "margin-end" "margin-bottom" "margin-start"),
    ("padding", .box "padding-top" "padding-end" "padding-bottom" "padding-start"),
    ("border-width", .box "border-top-width" "border-end-width" "border-bottom-width"
      "border-start-width"),
    ("border-style", .box "border-top-style" "border-end-style" "border-bottom-style"
      "border-start-style"),
    ("border-color", .box "border-top-color" "border-end-color" "border-bottom-color"
      "border-start-color"),
    ("border-radius", .box "border-top-start-radius" "border-top-end-radius"
      "border-bottom-end-radius" "border-bottom-start-radius"),
    ("inset", .box "top" "end" "bottom" "start"),
    ("margin-horizontal", .pair "margin-start" "margin-end"),
    ("margin-inline", .pair "margin-start" "margin-end"),
    ("margin-vertical", .pair "margin-top" "margin-bottom"),
    ("margin-block", .pair "margin-top" "margin-bottom"),
    ("padding-horizontal", .pair "padding-start" "padding-end"),
    ("padding-inline", .pair "padding-start" "padding-end"),
    ("padding-vertical", .pair "padding-top" "padding-bottom"),
    ("padding-block", .pair "padding-top" "padding-bottom"),
    ("inset-inline", .pair "start" "end"),
    ("inset-block", .pair "top" "bottom"),
    ("overflow", .pair "overflow-x" "overflow-y"),
    ("gap", .pair "row-gap" "column-gap")]

/-- The shorthand with the given name. -/
def ofProperty? (property : String) : Option Shorthand :=
  Keyed.get? property table

end Shorthand

end AtomicCss
