import AtomicCss.Decimal.Format
import AtomicCss.Error
import AtomicCss.Options
import AtomicCss.Property.Class

/-!
# Canonical values

Two spellings of one value must give one text, for the text names the class. A value is read, and
its nodes are brought into one form:

* gaps remain only between nodes that need one (`collapse`);
* milliseconds become seconds from ten on, zeros lose or change their units, and numbers lose
  zeros that do not count (`normalDimension`); in the arguments of calculations zeros keep their
  units;
* strings take double quotes where they can (`doubleQuoted`);
* property names in values are dashed (`dashWords`);
* if asked for, pixel sizes of fonts become relative to the root (`toRem`).

The values of `content` and its like are texts: unless they are CSS already they are put in quotes.
-/

namespace AtomicCss

/-! ### Gaps -/

mutual

/-- Collapses the gaps in the arguments of a call. -/
def collapseNode : Node → Node
  | .call name args closed => .call name (collapse false false args) closed
  | n => n

/-- Keeps one gap between two nodes that are not separators and drops all other gaps. `joins` says
whether there is a node before that is not a separator, and `pending` whether there was a gap after
it. -/
def collapse (joins pending : Bool) : List Node → List Node
  | [] => []
  | .space :: ns => collapse joins true ns
  | .divider mark :: ns => .divider mark :: collapse false false ns
  | n :: ns =>
    (if joins && pending then [.space] else []) ++ collapseNode n :: collapse true false ns

end

/-! ### Numbers -/

/-- Units of length; a zero length has no unit. -/
def lengthUnits : List String :=
  ["px", "em", "rem", "ex", "ch", "vw", "vh", "vmin", "vmax", "svw", "svh", "lvw", "lvh", "dvw",
    "dvh", "cm", "mm", "in", "pt", "pc", "q", "cqw", "cqh", "cqi", "cqb", "cqmin", "cqmax", "lh",
    "rlh", "vi", "vb"]

/-- Units of angles; a zero angle is written in degrees. -/
def angleUnits : List String :=
  ["deg", "grad", "rad", "turn"]

/-- Units of time; a zero time is written in seconds. -/
def timeUnits : List String :=
  ["ms", "s"]

/-- Calls in which numbers must keep their units. -/
def mathCalls : List String :=
  ["calc", "min", "max", "clamp", "var", "-webkit-calc", "-moz-calc"]

/-- The unit of a zero. -/
def zeroUnit (unit : String) : String :=
  let lower := Text.asciiLower unit
  if lengthUnits.contains lower then ""
  else if angleUnits.contains lower then "deg"
  else if timeUnits.contains lower then "s"
  else unit

/-- Milliseconds as seconds, from ten milliseconds on. -/
def toSeconds (d : Dimension) : Dimension :=
  if Text.sameIgnoringCase d.unit "ms" && 10.0 ≤ d.magnitude then
    ⟨formatNumber (d.value / 1000.0), "s"⟩
  else d

/-- A zero in its shortest form. -/
def stripZero (d : Dimension) : Dimension :=
  if d.isZero then ⟨"0", zeroUnit d.unit⟩ else d

/-- The characters of an unsigned number without the zeros that do not count: after a point those
at the end, and those of a whole part that is zero before a point. -/
def trimUnsigned (cs : List Char) : List Char :=
  let cs := if cs.contains '.' then dropEndWhile (· == '.') (dropEndWhile (· == '0') cs) else cs
  match cs.dropWhile (· == '0') with
  | [] => []
  | '.' :: rest => '.' :: rest
  | _ => cs

/-- The characters of a number without plus sign and without the zeros that do not count. -/
def trimNumber (cs : List Char) : List Char :=
  let (negative, digits) := splitSign cs
  match trimUnsigned digits with
  | [] => ['0']
  | trimmed => if negative then '-' :: trimmed else trimmed

/-- The number without the zeros that do not count. -/
def trimZeros (d : Dimension) : Dimension :=
  { d with number := String.ofList (trimNumber d.number.toList) }

/-- The canonical form of a number; `inMath` says whether it is an argument of a calculation. -/
def normalDimension (inMath : Bool) (d : Dimension) : Dimension :=
  let d := toSeconds d
  trimZeros (if inMath then d else stripZero d)

/-- Pixels as multiples of the root's font size of sixteen pixels. -/
def toRem (d : Dimension) : Dimension :=
  if Text.sameIgnoringCase d.unit "px" then
    ⟨String.ofList (trimNumber (formatNumber (d.value / 16.0)).toList), "rem"⟩
  else d

mutual

/-- Applies `f` to the numbers of a node. The first argument of `f` says whether the number is, at
any depth, an argument of a calculation. -/
def mapNumbersNode (f : Bool → Dimension → Dimension) (inMath : Bool) : Node → Node
  | .number d => .number (f inMath d)
  | .call name args closed =>
    .call name (mapNumbers f (inMath || mathCalls.contains (Text.asciiLower name)) args) closed
  | n => n

/-- Applies `f` to the numbers of nodes in a row. -/
def mapNumbers (f : Bool → Dimension → Dimension) (inMath : Bool) : List Node → List Node
  | [] => []
  | n :: ns => mapNumbersNode f inMath n :: mapNumbers f inMath ns

end

/-! ### Strings and words -/

mutual

/-- Turns single quotes into double ones where the string has no double quote. -/
def doubleQuotedNode : Node → Node
  | .string quote content =>
    if quote = '\'' && !content.toList.contains '"' then .string '"' content
    else .string quote content
  | .call name args closed => .call name (doubleQuoted args) closed
  | n => n

/-- Turns single quotes into double ones in nodes in a row. -/
def doubleQuoted : List Node → List Node
  | [] => []
  | n :: ns => doubleQuotedNode n :: doubleQuoted ns

end

/-- Dashes a word. -/
def dashWord : Node → Node
  | .word text => .word (Property.dashed text)
  | n => n

/-- Dashes the words at the top level. -/
def dashWords (ns : List Node) : List Node :=
  ns.map dashWord

/-! ### Values -/

/-- Reads a value in which every call is closed. -/
def readClosed (property raw : String) : Except StyleError (List Node) :=
  match parseValue raw with
  | .error failure => .error (.malformed property raw (.unreadable failure))
  | .ok nodes =>
    if Node.anyUnclosed nodes then .error (.malformed property raw .unclosedCall) else .ok nodes

/-- The nodes of a value in canonical form. -/
def normalNodes (options : Options) (property : String) (nodes : List Node) : List Node :=
  let nodes := doubleQuoted (mapNumbers normalDimension false (collapse false false nodes))
  let nodes := if Property.listing.contains property then dashWords nodes else nodes
  if options.lengthToRem && property == Property.fontSize then
    mapNumbers (fun _ => toRem) false nodes
  else nodes

/-- Keywords of `content`. -/
def contentKeywords : List String :=
  ["normal", "none", "open-quote", "close-quote", "no-open-quote", "no-close-quote", "inherit",
    "initial", "revert", "revert-layer", "unset"]

/-- Calls that mark a text as CSS. -/
def contentCalls : List String :=
  ["attr(", "counter(", "counters(", "url(", "linear-gradient(", "image-set(", "var(--"]

/-- Whether a text of at least two characters starts and ends with one and the same quote. -/
def isInQuotes (s : String) : Bool :=
  match s.toList with
  | c :: d :: cs => isQuote c && (d :: cs).getLast? == some c
  | _ => false

/-- Whether the text is CSS already and not to be put in quotes. -/
def isCssContent (s : String) : Bool :=
  contentCalls.any (Text.contains s) || contentKeywords.contains s || isInQuotes s

/-- The canonical form of the value of a textual property. -/
def normalText (property raw : String) : Except StyleError String :=
  let text := Text.trim raw
  if isCssContent text then (readClosed property text).map fun _ => text
  else .ok ("\"" ++ Text.replaceChar '"' "\\\"" text ++ "\"")

/-- The canonical form of a value of the given property, whose name is dashed. -/
def normalValue (options : Options) (property raw : String) : Except StyleError String :=
  if Property.textual.contains property then normalText property raw
  else if Text.isBlankText raw then .error (.malformed property raw .emptyValue)
  else
    (readClosed property raw).map fun nodes => Node.render (normalNodes options property nodes)

/-- The text of a number with the unit of the property. -/
def numberText (property : String) (x : Float) : String :=
  formatNumber x ++ Property.numberUnit property

/-- The canonical form of a number as a value of the property. -/
def normalNumber (options : Options) (property : String) (x : Float) : String :=
  match normalValue options property (numberText property x) with
  | .ok value => value
  | .error _ => numberText property x

end AtomicCss
