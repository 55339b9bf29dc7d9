import AtomicCss.Kind
import AtomicCss.Value.Reader

/-!
# What can be wrong with a style

A `StyleError` says which property is at fault and why; the words for it are in one place. A
`NamespaceError` adds the namespace in which it was found.
-/

namespace AtomicCss

/-- What makes a value text unusable. -/
inductive Malformation where
  /-- There is nothing but blanks. -/
  | emptyValue
  /-- A call is missing its closing parenthesis. -/
  | unclosedCall
  /-- The text does not divide into tokens. -/
  | unreadable (failure : ParseFailure)
  /-- A shorthand has more parts than longhands. -/
  | tooManyParts (most found : Nat)
deriving DecidableEq, Repr

/-- The words for a malformation. -/
def Malformation.message : Malformation → String
  | .emptyValue => "empty value"
  | .unclosedCall => "unclosed function call"
  | .unreadable failure => failure.message
  | .tooManyParts most found =>
    "expected at most " ++ Decimal.natText most ++ " values, found " ++ Decimal.natText found

/-- What a property has in place of a value that it can take. -/
inductive Unsupported where
  /-- A value of this kind. -/
  | kind (found : Kind)
  /-- A fallback of this kind. -/
  | insideFallbacks (found : Kind)
  /-- A list without fallbacks. -/
  | emptyFallbacks
  /-- A value of this kind under the key of a pseudo-element group. -/
  | groupValue (found : Kind)
  /-- A condition where a property should stand. -/
  | conditionKey
  /-- A value that depends on a condition, where none can apply. -/
  | conditionalValue
  /-- A variable under a condition on the selector. -/
  | selectorOnVariable
  /-- A part that view transitions do not have. -/
  | unknownTransitionPart
deriving DecidableEq, Repr

/-- The words for an unsupported value. -/
def Unsupported.message : Unsupported → String
  | .kind found => found.name
  | .insideFallbacks found => found.name ++ " inside a fallback list"
  | .emptyFallbacks => "empty fallback list"
  | .groupValue found => found.name ++ " for a pseudo-element group"
  | .conditionKey => "condition key in place of a property"
  | .conditionalValue => "conditional value"
  | .selectorOnVariable => "selector condition on a variable"
  | .unknownTransitionPart => "unknown view-transition pseudo-element"

/-- Why a property could not be compiled. -/
inductive StyleError where
  /-- The value text is unusable. -/
  | malformed (property value : String) (reason : Malformation)
  /-- A shorthand has a list of fallbacks. -/
  | fallbacksOnShorthand (property : String)
  /-- The value is of a kind that the property cannot take. -/
  | unsupported (property : String) (found : Unsupported)
deriving DecidableEq, Repr

namespace StyleError

/-- The property at fault. -/
def property : StyleError → String
  | .malformed property _ _ => property
  | .fallbacksOnShorthand property => property
  | .unsupported property _ => property

/-- The words for an error. -/
def message : StyleError → String
  | .malformed property value reason =>
    "malformed value `" ++ value ++ "` for `" ++ property ++ "`: " ++ reason.message
  | .fallbacksOnShorthand property =>
    "fallback arrays are not allowed for shorthand property `" ++ property ++ "`"
  | .unsupported property found =>
    "unsupported value type for `" ++ property ++ "`: " ++ found.message

end StyleError

/-- An error with the namespace in which it was found. -/
structure NamespaceError where
  /-- The namespace. -/
  space : String
  /-- The error. -/
  error : StyleError
deriving DecidableEq, Repr

/-- The words for an error in a namespace. -/
def NamespaceError.message (e : NamespaceError) : String :=
  "in namespace `" ++ e.space ++ "`: " ++ e.error.message

end AtomicCss
