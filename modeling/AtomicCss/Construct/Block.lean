import AtomicCss.Expansion
import AtomicCss.Rule

/-!
# Blocks of declarations

The frames of an animation and their like are blocks of declarations under no condition. A block is
written for each writing direction with the physical forms of its declarations.
-/

namespace AtomicCss

/-- A rule that is used by its name. -/
structure Named where
  /-- The name. -/
  name : String
  /-- The rule that defines the name. -/
  rule : Rule
deriving DecidableEq, Repr

/-- The declarations of one property of a block. The first error counts, and then a condition. -/
def blockProperty (options : Options) (entry : String × StyleValue) :
    Except StyleError (List Declaration) :=
  let expansion := expandProperty options entry.1 entry.2
  match expansion.errors with
  | error :: _ => .error error
  | [] =>
    if expansion.declarations.any (!·.conditions.isEmpty) then
      .error (.unsupported entry.1 .conditionalValue)
    else .ok (expansion.declarations.filter (!·.isUnset))

/-- The declarations of a block. -/
def blockDeclarations (options : Options) (entries : List (String × StyleValue)) :
    Except StyleError (List Declaration) :=
  (entries.mapM (blockProperty options)).map List.flatten

/-- The declarations of a value that must be a map of properties. The error names the given key. -/
def frameDeclarations (options : Options) (key : String) :
    StyleValue → Except StyleError (List Declaration)
  | .conditional entries => blockDeclarations options entries
  | value => .error (.unsupported key (.kind value.kind))

/-- The inside of a block for one direction. -/
def blockBody (options : Options) (direction : Direction) (ds : List Declaration) : String :=
  String.intercalate ";" (ds.map fun d => (d.physical options direction).body)

/-- A rule with a text for each direction; one is enough if they are the same. -/
def namedRule (name : String) (text : Direction → String) : Rule where
  className := name
  ltr := text .ltr
  rtl := if text .rtl = text .ltr then none else some (text .rtl)
  priority := .auxiliary

/-- An error in a construct of the given kind. -/
def inConstruct {α : Type} (construct : String) (r : Except StyleError α) :
    Except NamespaceError α :=
  r.mapError fun error => ⟨construct, error⟩

end AtomicCss
