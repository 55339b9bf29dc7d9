import AtomicCss.Decimal.Format
import AtomicCss.Digest.Basic
import AtomicCss.Error
import AtomicCss.Json.Basic
import AtomicCss.Json.Reader
import AtomicCss.Json.Writer

/-!
# Style definitions

A definition gives each property a value: a text, a number, a list of fallbacks, a map from
conditions to values, or null, which unsets the property. Its properties are pairwise distinct and
keep the order in which they were first set.

* `Definition.insert` sets a property, and `Definition.extend` sets all properties of another
  definition.
* `Definition.canonicalText` is a text that two definitions share exactly when they look alike once
  numbers are written out.
* `Definition.ofJson` reads a definition from a JSON value.
-/

namespace AtomicCss

/-- The value of a property. -/
inductive StyleValue where
  /-- Unsets the property. -/
  | null
  /-- A value as written. -/
  | text (raw : String)
  /-- A number, which takes the unit of its property. -/
  | number (x : Float)
  /-- Alternatives, the least preferred first. -/
  | fallbacks (items : List StyleValue)
  /-- Values under conditions, in order. -/
  | conditional (entries : List (String × StyleValue))

namespace StyleValue

/-- A conditional value in which a repeated key replaces the earlier value in its place. -/
def conditionalOf (entries : List (String × StyleValue)) : StyleValue :=
  .conditional (Keyed.putAll [] entries)

/-- The kind of a value. -/
def kind : StyleValue → Kind
  | .null => .null
  | .text _ => .string
  | .number _ => .number
  | .fallbacks _ => .array
  | .conditional _ => .object

mutual

/-- The canonical text of a value. -/
def canonicalText : StyleValue → String
  | .null => "null"
  | .text raw => Json.quote raw
  | .number x => formatNumber x
  | .fallbacks items => Json.writeArray (canonicalTexts items)
  | .conditional entries => Json.writeObject (canonicalEntries entries)

/-- The canonical texts of values in a row. -/
def canonicalTexts : List StyleValue → List String
  | [] => []
  | value :: rest => canonicalText value :: canonicalTexts rest

/-- Entries with the canonical texts of their values. -/
def canonicalEntries : List (String × StyleValue) → List (String × String)
  | [] => []
  | (key, value) :: rest => (key, canonicalText value) :: canonicalEntries rest

end

/-- A fallback from a JSON value, which must be a text, a number or null. -/
def fallbackOfJson (property : String) : Json → Except StyleError StyleValue
  | .null => .ok .null
  | .string s => .ok (.text s)
  | .number x => .ok (.number x)
  | j => .error (.unsupported property (.insideFallbacks j.kind))

mutual

/-- A value from a JSON value: there is none for a truth value, nor for a list that holds anything
but texts, numbers and null. Errors name the given property. -/
def ofJson (property : String) : Json → Except StyleError StyleValue
  | .null => .ok .null
  | .string s => .ok (.text s)
  | .number x => .ok (.number x)
  | .bool _ => .error (.unsupported property (.kind .boolean))
  | .array items => (items.mapM (fallbackOfJson property)).map .fallbacks
  | .object members => (entriesOfJson property members).map .conditional

/-- The values of the members of a JSON object. -/
def entriesOfJson (property : String) :
    List (String × Json) → Except StyleError (List (String × StyleValue))
  | [] => .ok []
  | (key, j) :: rest => do
    let value ← ofJson property j
    let entries ← entriesOfJson property rest
    return (key, value) :: entries

end

end StyleValue

/-- A value for each of finitely many properties, in the order in which they were first set. -/
structure Definition where
  /-- The properties with their values. -/
  entries : List (String × StyleValue)
  /-- No property occurs twice. -/
  nodup_keys : (Keyed.keys entries).Nodup

namespace Definition

/-- The definition without properties. -/
def empty : Definition :=
  ⟨[], List.nodup_nil⟩

/-- Sets a property: in place if it is present, at the end otherwise. -/
def insert (d : Definition) (property : String) (value : StyleValue) : Definition :=
  ⟨Keyed.put property value d.entries, Keyed.nodup_put d.nodup_keys⟩

/-- Sets properties one after the other. -/
def insertAll (d : Definition) (entries : List (String × StyleValue)) : Definition :=
  ⟨Keyed.putAll d.entries entries, Keyed.nodup_putAll d.nodup_keys⟩

/-- The definition that sets the given properties one after the other. -/
def ofEntries (entries : List (String × StyleValue)) : Definition :=
  empty.insertAll entries

/-- Sets all properties of another definition. -/
def extend (d e : Definition) : Definition :=
  d.insertAll e.entries

/-- The value of a property. -/
def get? (d : Definition) (property : String) : Option StyleValue :=
  Keyed.get? property d.entries

/-- The number of properties. -/
def size (d : Definition) : Nat :=
  d.entries.length

/-- Whether there are no properties. -/
def isEmpty (d : Definition) : Bool :=
  d.entries.isEmpty

/-- The canonical text of a definition. -/
def canonicalText (d : Definition) : String :=
  Json.writeObject (StyleValue.canonicalEntries d.entries)

/-- The digest of the canonical text. -/
def digest (d : Definition) : UInt64 :=
  Digest.ofText d.canonicalText

/-- What errors call a definition as a whole. -/
def wholeName : String := "<definition>"

/-- The values of the members of a JSON object, each under its own name. -/
def entriesOfJson :
    List (String × Json) → Except StyleError (List (String × StyleValue))
  | [] => .ok []
  | (property, j) :: rest => do
    let value ← StyleValue.ofJson property j
    let entries ← entriesOfJson rest
    return (property, value) :: entries

/-- A definition from a JSON value, which must be an object. The first value that is not supported
is reported. -/
def ofJson : Json → Except StyleError Definition
  | .object members => (entriesOfJson members).map ofEntries
  | j => .error (.unsupported wholeName (.kind j.kind))

/-- Two definitions with the same entries are equal. -/
theorem ext_entries {d e : Definition} (h : d.entries = e.entries) : d = e := by
  cases d
  cases e
  cases h
  rfl

end Definition

end AtomicCss
