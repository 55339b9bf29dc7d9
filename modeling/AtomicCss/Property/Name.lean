import AtomicCss.Text.Basic

/-!
# Property names

Properties are written with dashes. A name in camel case is dashed: a dash goes before a capital
letter at the beginning or after a small letter, and capitals become small. Custom properties, which
start with two dashes, keep their spelling.
-/

namespace AtomicCss.Property

/-- Whether the name is that of a custom property. -/
def isCustom (name : String) : Bool :=
  Text.startsWith name "--"

/-- Dashes the characters that follow `previous`. -/
def dashAfter : Option Char → List Char → List Char
  | _, [] => []
  | previous, c :: cs =>
    (if c.isUpper && previous.all Char.isLower then ['-'] else []) ++
      c.toLower :: dashAfter (some c) cs

/-- The name with dashes. -/
def dashed (name : String) : String :=
  if isCustom name then name else String.ofList (dashAfter none name.toList)

end AtomicCss.Property
