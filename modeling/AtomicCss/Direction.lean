import AtomicCss.Declaration
import AtomicCss.Keyed
import AtomicCss.Options

/-!
# Writing directions

Logical properties and keywords speak of the start and the end of a line; CSS output speaks of left
and right. A declaration has a physical form for each writing direction, and where the two forms are
the same the left-to-right one serves for both.

* `Declaration.ltr` is the form from left to right, and `Declaration.rtl?` the one from right to
  left if it differs.
* `flipShadow` turns the horizontal offsets of shadows around.
-/

namespace AtomicCss

/-- A writing direction. -/
inductive Direction where
  /-- Left to right. -/
  | ltr
  /-- Right to left. -/
  | rtl
deriving DecidableEq, Repr

namespace Direction

/-- The side where a line starts. -/
def startSide : Direction → String
  | .ltr => "left"
  | .rtl => "right"

/-- The side where a line ends. -/
def endSide : Direction → String
  | .ltr => "right"
  | .rtl => "left"

/-- Restricts a selector to documents of a direction. -/
def scope : Direction → String → String
  | .ltr, selector => "html:not([dir='rtl']) " ++ selector
  | .rtl, selector => "html[dir='rtl'] " ++ selector

/-- The logical properties with their physical forms from left to right and from right to left. -/
def logicalProperties : List (String × String × String) :=
  [("margin-start", "margin-left", "margin-right"),
    ("margin-end", "margin-right", "margin-left"),
    ("padding-start", "padding-left", "padding-right"),
    ("padding-end", "padding-right", "padding-left"),
    ("border-start", "border-left", "border-right"),
    ("border-end", "border-right", "border-left"),
    ("border-start-width", "border-left-width", "border-right-width"),
    ("border-end-width", "border-right-width", "border-left-width"),
    ("border-start-color", "border-left-color", "border-right-color"),
    ("border-end-color", "border-right-color", "border-left-color"),
    ("border-start-style", "border-left-style", "border-right-style"),
    ("border-end-style", "border-right-style", "border-left-style"),
    ("border-top-start-radius", "border-top-left-radius", "border-top-right-radius"),
    ("border-top-end-radius", "border-top-right-radius", "border-top-left-radius"),
    ("border-bottom-start-radius", "border-bottom-left-radius", "border-bottom-right-radius"),
    ("border-bottom-end-radius", "border-bottom-right-radius", "border-bottom-left-radius"),
    ("start", "left", "right"),
    ("end", "right", "left")]

/-- The physical name of a property. -/
def property (direction : Direction) (name : String) : String :=
  match Keyed.get? name logicalProperties with
  | none => name
  | some (fromLeft, fromRight) =>
    match direction with
    | .ltr => fromLeft
    | .rtl => fromRight

/-- Resize cursors with the cursors that point the other way. -/
def cursorFlips : List (String × String) :=
  [("e-resize", "w-resize"), ("w-resize", "e-resize"), ("ne-resize", "nw-resize"),
    ("nw-resize", "ne-resize"), ("se-resize", "sw-resize"), ("sw-resize", "se-resize"),
    ("nesw-resize", "nwse-resize"), ("nwse-resize", "nesw-resize")]

/-- The side for a keyword of `float` and `clear`. -/
def floatSide (direction : Direction) (value : String) : String :=
  if value = "start" || value = "inline-start" then direction.startSide
  else if value = "end" || value = "inline-end" then direction.endSide
  else value

/-- The side for a word of a position. -/
def positionWord (direction : Direction) (word : String) : String :=
  if word = "start" then direction.startSide
  else if word = "end" then direction.endSide
  else word

/-- A position with a side for each of its words between spaces. -/
def position (direction : Direction) (value : String) : String :=
  String.intercalate " "
    ((Text.cutAt (· == ' ') value.toList).map fun w => direction.positionWord (String.ofList w))

end Direction

/-- The number with the opposite sign. -/
def Dimension.negate (d : Dimension) : Dimension :=
  match d.number.toList with
  | '-' :: rest => { d with number := String.ofList rest }
  | cs => { d with number := String.ofList ('-' :: cs.dropWhile (· == '+')) }

/-- The number with the opposite sign, unless it is zero. -/
def Dimension.flip (d : Dimension) : Dimension :=
  if d.isZero then d else d.negate

/-- Turns around the first number of each shadow; `pending` says whether it is still to come. -/
def flipOffsets (pending : Bool) : List Node → List Node
  | [] => []
  | .divider mark :: ns =>
    .divider mark :: flipOffsets (if mark = ',' then true else pending) ns
  | .number d :: ns => .number (if pending then d.flip else d) :: flipOffsets false ns
  | n :: ns => n :: flipOffsets pending ns

/-- Turns around the horizontal offset of each shadow in a list. -/
def flipShadow (value : String) : String :=
  match parseValue value with
  | .ok nodes => Node.render (flipOffsets true nodes)
  | .error _ => value

/-- The physical form of a value of the given property. -/
def Direction.value (direction : Direction) (options : Options) (property value : String) :
    String :=
  if property = "float" || property = "clear" then direction.floatSide value
  else if property = "background-position" then direction.position value
  else if direction = .rtl && options.flipLegacyValues then
    if property = "box-shadow" || property = "text-shadow" then flipShadow value
    else if property = "cursor" then (Keyed.get? value Direction.cursorFlips).getD value
    else value
  else value

namespace Declaration

/-- The physical form of a declaration for one direction. -/
def physical (options : Options) (direction : Direction) (d : Declaration) : Declaration where
  property := direction.property d.property
  values := d.values.map (direction.value options d.property)
  conditions := d.conditions

/-- The physical form from left to right. -/
def ltr (options : Options) (d : Declaration) : Declaration :=
  d.physical options .ltr

/-- The physical form from right to left, if it differs from the one from left to right. -/
def rtl? (options : Options) (d : Declaration) : Option Declaration :=
  if d.physical options .rtl = d.ltr options then none else some (d.physical options .rtl)

end Declaration

end AtomicCss
