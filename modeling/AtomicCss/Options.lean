import AtomicCss.Digest.Basic
import AtomicCss.Json.Reader
import AtomicCss.Json.Writer
import AtomicCss.Keyed

/-!
# Compiler options

The options of a build, their JSON form and the digest under which compilations are remembered.

* `Options.ofDocument?` reads an object with any of the six keys, or an array of the values in the
  order of the fields. A missing value takes its default; what stands under an unknown key does not
  matter; a known key may occur once.
* `Options.fingerprintText` lists the options on which compiled rules depend.
-/

namespace AtomicCss

/-- How the styles of several namespaces are merged on one element. The compiler passes this on. -/
inductive StyleResolution where
  /-- Later styles win. -/
  | applicationOrder
  /-- Properties that are more specific win. -/
  | propertySpecificity
  /-- Shorthands are expanded before they are merged. -/
  | legacyExpandShorthands
deriving DecidableEq, Repr

namespace StyleResolution

/-- The name in option files. -/
def name : StyleResolution → String
  | .applicationOrder => "application-order"
  | .propertySpecificity => "property-specificity"
  | .legacyExpandShorthands => "legacy-expand-shorthands"

/-- The mode with the given name. -/
def ofName? (s : String) : Option StyleResolution :=
  [.applicationOrder, .propertySpecificity, .legacyExpandShorthands].find? (·.name == s)

/-- Reads a name, or an object whose only key is a name and has the value null. -/
def ofDocument? (d : Json.Document) : Option StyleResolution :=
  match d with
  | .string pieces => Json.textOf? pieces >>= ofName?
  | .object [(key, .null)] => Json.textOf? key >>= ofName?
  | _ => none

end StyleResolution

/-- The options of a build. -/
structure Options where
  /-- What class names and variable names start with. -/
  classNamePrefix : String := "x"
  /-- Whether font sizes in pixels are written relative to the root. -/
  lengthToRem : Bool := false
  /-- Whether the stylesheet is written in cascade layers. -/
  cssLayers : Bool := false
  /-- How namespaces are merged. -/
  resolution : StyleResolution := .applicationOrder
  /-- Whether class names show the property they style. -/
  debug : Bool := false
  /-- Whether shadows and resize cursors are turned around for right-to-left text. -/
  flipLegacyValues : Bool := false
deriving DecidableEq, Repr

namespace Options

/-- Reads the options from the members of an object. -/
def ofMembers? (members : List (String × Json.Document)) : Option Options := do
  let classNamePrefix ← Json.member? Json.Document.text? "classNamePrefix" members
  let lengthToRem ← Json.member? Json.Document.bool? "enableLengthToRem" members
  let cssLayers ← Json.member? Json.Document.bool? "useCSSLayers" members
  let resolution ← Json.member? StyleResolution.ofDocument? "styleResolution" members
  let debug ← Json.member? Json.Document.bool? "debug" members
  let flipLegacyValues ← Json.member? Json.Document.bool? "enableLegacyValueFlipping" members
  let default : Options := {}
  return {
    classNamePrefix := classNamePrefix.getD default.classNamePrefix
    lengthToRem := lengthToRem.getD default.lengthToRem
    cssLayers := cssLayers.getD default.cssLayers
    resolution := resolution.getD default.resolution
    debug := debug.getD default.debug
    flipLegacyValues := flipLegacyValues.getD default.flipLegacyValues }

/-- The keys of the options in the order of the fields. -/
def keys : List String :=
  ["classNamePrefix", "enableLengthToRem", "useCSSLayers", "styleResolution", "debug",
    "enableLegacyValueFlipping"]

/-- Reads the options from a document. -/
def ofDocument? (d : Json.Document) : Option Options :=
  match d with
  | .array items => if items.length ≤ keys.length then ofMembers? (keys.zip items) else none
  | _ => d.members? >>= ofMembers?

/-- Reads the options from a JSON text. -/
def ofText? (source : String) : Option Options :=
  Json.Document.ofText? source >>= ofDocument?

/-- The word for a truth value. -/
def flag (b : Bool) : String :=
  if b then "true" else "false"

/-- The options as a JSON text. -/
def text (o : Options) : String :=
  Json.writeObject [
    ("classNamePrefix", Json.quote o.classNamePrefix),
    ("enableLengthToRem", flag o.lengthToRem),
    ("useCSSLayers", flag o.cssLayers),
    ("styleResolution", Json.quote o.resolution.name),
    ("debug", flag o.debug),
    ("enableLegacyValueFlipping", flag o.flipLegacyValues)]

/-- The options with another beginning of names. -/
def withPrefix (o : Options) (s : String) : Options :=
  { o with classNamePrefix := s }

/-- The options with cascade layers switched on or off. -/
def withLayers (o : Options) (enabled : Bool) : Options :=
  { o with cssLayers := enabled }

/-- The options on which compiled rules depend, as one text. -/
def fingerprintText (o : Options) : String :=
  o.classNamePrefix ++ "|" ++ flag o.lengthToRem ++ "|" ++ flag o.debug ++ "|" ++
    flag o.flipLegacyValues

/-- The digest of the options on which compiled rules depend. -/
def fingerprint (o : Options) : UInt64 :=
  Digest.ofText o.fingerprintText

end Options

end AtomicCss
