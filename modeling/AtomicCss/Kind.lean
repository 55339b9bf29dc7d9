/-!
# Kinds of values

The words by which messages name the kind of a value, shared by JSON values and style values.
-/

namespace AtomicCss

/-- The kind of a value. -/
inductive Kind where
  /-- The null value. -/
  | null
  /-- A truth value. -/
  | boolean
  /-- A number. -/
  | number
  /-- A text. -/
  | string
  /-- A list. -/
  | array
  /-- A map. -/
  | object
deriving DecidableEq, Repr

/-- The word for a kind. -/
def Kind.name : Kind → String
  | .null => "null"
  | .boolean => "boolean"
  | .number => "number"
  | .string => "string"
  | .array => "array"
  | .object => "object"

end AtomicCss
