import AtomicCss.Construct.Block
import AtomicCss.Definition

/-!
# Alternatives for anchored positions

A block of declarations that the browser tries when an anchored element does not fit.
-/

namespace AtomicCss

/-- The alternative with the given declarations. -/
def positionAlternative (options : Options) (ds : List Declaration) : Named :=
  let name := "--" ++ prefixedName options (blockBody options .ltr ds)
  ⟨name, namedRule name fun direction =>
    block ("@position-try " ++ name) (blockBody options direction ds)⟩

/-- Compiles an alternative for an anchored position. -/
def positionTry (options : Options) (d : Definition) : Except NamespaceError Named :=
  inConstruct "position-try"
    ((blockDeclarations options d.entries).map (positionAlternative options))

end AtomicCss
