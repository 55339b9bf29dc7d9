import AtomicCss.Expansion
import AtomicCss.Lookup
import AtomicCss.Sheet

/-!
# Compiling namespaces

A definition is compiled declaration by declaration: what fails is reported and left out. Only if
everything fails does the compilation as a whole.
-/

namespace AtomicCss

/-- The result of a compilation. -/
structure Compiled where
  /-- The table that takes the place of the definition. -/
  table : LookupTable
  /-- The rules, each class once, in the order of the declarations. -/
  rules : List Rule
  /-- What was left out. -/
  errors : List NamespaceError
deriving DecidableEq, Repr

namespace Compiled

/-- Whether nothing was left out. -/
def isComplete (c : Compiled) : Bool :=
  c.errors.isEmpty

end Compiled

namespace Declaration

/-- The key of a declaration in the lookup table. -/
def lookupKey (d : Declaration) : LookupKey :=
  ⟨d.property, Condition.texts d.conditions⟩

/-- The class of a declaration, unless it unsets its property. -/
def styleRef (options : Options) (d : Declaration) : StyleRef :=
  match d.rule? options with
  | some rule => .className rule.className
  | none => .unset

end Declaration

/-- The error with which an expansion fails as a whole: the first one, if everything failed. -/
def Expansion.failure? (e : Expansion) : Option StyleError :=
  if e.allFailed then e.errors.head? else none

/-- Compiles declarations; the errors are those met on the way to them. -/
def compileDeclarations (options : Options) (name : String) (declarations : List Declaration)
    (errors : List StyleError) : Compiled where
  table := (LookupTable.empty name).insertAll
    (declarations.map fun d => (d.lookupKey, d.styleRef options))
  rules := firstByClass (declarations.filterMap (·.rule? options))
  errors := errors.map fun error => ⟨name, error⟩

/-- Compiles a definition. -/
def compileNamespace (options : Options) (name : String) (d : Definition) :
    Except NamespaceError Compiled :=
  let expansion := expandDefinition options d
  match expansion.failure? with
  | some error => .error ⟨name, error⟩
  | none => .ok (compileDeclarations options name expansion.declarations expansion.errors)

end AtomicCss
