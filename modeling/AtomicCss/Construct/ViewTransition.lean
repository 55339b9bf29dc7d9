import AtomicCss.Construct.Block
import AtomicCss.Definition

/-!
# Classes of view transitions

A view transition has four parts, each with a block of declarations. Only the forms from left to
right are used.
-/

namespace AtomicCss

/-- The parts of a view transition. -/
def transitionParts : List String :=
  ["group", "image-pair", "old", "new"]

/-- A part of a view transition with its block. -/
def transitionPart (options : Options) (entry : String × StyleValue) :
    Except StyleError (String × String) :=
  let part := Property.dashed entry.1
  if transitionParts.contains part then
    (frameDeclarations options entry.1 entry.2).map fun ds => (part, blockBody options .ltr ds)
  else .error (.unsupported entry.1 .unknownTransitionPart)

/-- The text that names a view transition. -/
def transitionText (parts : List (String × String)) : String :=
  "view-transition:" ++ String.join (parts.map fun part => block part.1 part.2)

/-- The selector of a part of the view transition with the given name. -/
def transitionSelector (name part : String) : String :=
  "::view-transition-" ++ part ++ "(*." ++ name ++ ")"

/-- The view transition with the given parts. -/
def transition (options : Options) (parts : List (String × String)) : Named :=
  let name := prefixedName options (transitionText parts)
  ⟨name, namedRule name fun _ =>
    String.join (parts.map fun part => block (transitionSelector name part.1) part.2)⟩

/-- Compiles a class of view transitions. -/
def viewTransitionClass (options : Options) (d : Definition) : Except NamespaceError Named :=
  inConstruct "view-transition-class"
    ((d.entries.mapM (transitionPart options)).map (transition options))

end AtomicCss
