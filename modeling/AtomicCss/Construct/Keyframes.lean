import AtomicCss.Construct.Block
import AtomicCss.Definition

/-!
# Animations

The frames of an animation are blocks under `from`, `50%`, `to` and the like. The name of an
animation ends in a way in which no class name does.
-/

namespace AtomicCss

/-- A frame of an animation with its declarations. -/
def keyframe (options : Options) (entry : String × StyleValue) :
    Except StyleError (String × List Declaration) :=
  (frameDeclarations options entry.1 entry.2).map fun ds => (entry.1, ds)

/-- The frames for one direction. -/
def framesText (options : Options) (frames : List (String × List Declaration))
    (direction : Direction) : String :=
  String.join (frames.map fun frame => block frame.1 (blockBody options direction frame.2))

/-- The animation with the given frames. -/
def animation (options : Options) (frames : List (String × List Declaration)) : Named :=
  let name := prefixedName options (framesText options frames .ltr) ++ "-B"
  ⟨name, namedRule name fun direction =>
    block ("@keyframes " ++ name) (framesText options frames direction)⟩

/-- Compiles an animation. -/
def keyframes (options : Options) (d : Definition) : Except NamespaceError Named :=
  inConstruct "keyframes" ((d.entries.mapM (keyframe options)).map (animation options))

end AtomicCss
