import AtomicCss.Json.Document
import AtomicCss.Keyed
import AtomicCss.Kind

/-!
# JSON values

A `Json` value is what a document means when all of it is looked at: numbers are doubles, strings
are texts, and an object has each key once, at its first place and with its last value.
-/

namespace AtomicCss

/-- A JSON value. -/
inductive Json where
  /-- The null value. -/
  | null
  /-- A truth value. -/
  | bool (b : Bool)
  /-- A number. -/
  | number (x : Float)
  /-- A text. -/
  | string (s : String)
  /-- An array. -/
  | array (items : List Json)
  /-- An object, its members in order. -/
  | object (members : List (String × Json))

namespace Json

/-- The kind of a value. -/
def kind : Json → Kind
  | .null => .null
  | .bool _ => .boolean
  | .number _ => .number
  | .string _ => .string
  | .array _ => .array
  | .object _ => .object

/-- How many arrays and objects may be open at a time. -/
def depthLimit : Nat := 127

/-- The value of a document with at most `depth` arrays and objects open at a time, no number
beyond the range of doubles and no lone surrogate. -/
def ofDocument? : Nat → Document → Option Json
  | _, .null => some .null
  | _, .bool b => some (.bool b)
  | _, .number n => n.toFloat?.map .number
  | _, .string pieces => (textOf? pieces).map .string
  | 0, .array _ => none
  | 0, .object _ => none
  | depth + 1, .array items => (items.mapM (ofDocument? depth)).map .array
  | depth + 1, .object members => do
    let members ← members.mapM fun m => do
      let key ← textOf? m.1
      let value ← ofDocument? depth m.2
      return (key, value)
    return .object (Keyed.putAll [] members)

end Json

end AtomicCss
