import AtomicCss.Rule

/-!
# Stylesheets

A sheet is a list of rules without two for one class, in the order of their priorities. It is
written flat, or in cascade layers, each of which has the rules of that layer in the same order.

* `Sheet.ofRules` keeps the first rule for each class and sorts the rules by priority, and rules of
  one priority stay in order.
* `Sheet.layers` are the layers that have rules, in cascade order.
-/

namespace AtomicCss

/-- The first rule for each class, in order. -/
def firstByClass : List Rule → List Rule
  | [] => []
  | r :: rs => r :: (firstByClass rs).filter (·.className != r.className)

/-- Whether one rule may stand before another. -/
def Rule.precedes (r s : Rule) : Bool :=
  r.priority.value ≤ s.priority.value

/-- A stylesheet. -/
structure Sheet where
  /-- The rules in order. -/
  rules : List Rule
deriving DecidableEq, Repr

namespace Sheet

/-- The sheet of the given rules. -/
def ofRules (rules : List Rule) : Sheet :=
  ⟨(firstByClass rules).mergeSort Rule.precedes⟩

/-- The number of rules. -/
def size (s : Sheet) : Nat :=
  s.rules.length

/-- Whether there are no rules. -/
def isEmpty (s : Sheet) : Bool :=
  s.rules.isEmpty

/-- The sheet with the rules of the given classes only. -/
def subset (s : Sheet) (classNames : List String) : Sheet :=
  ⟨s.rules.filter (classNames.contains ·.className)⟩

/-- The rules of one layer. -/
def inLayer (s : Sheet) (layer : Layer) : List Rule :=
  s.rules.filter (·.layer == layer)

/-- The layers that have rules, with their rules, in cascade order. -/
def layers (s : Sheet) : List (Layer × List Rule) :=
  (Layer.all.map fun layer => (layer, s.inLayer layer)).filter (!·.2.isEmpty)

/-- The texts of rules, one a line. -/
def rulesText (rules : List Rule) : String :=
  String.intercalate "\n" (rules.flatMap Rule.texts)

/-- The sheet without layers. -/
def flat (s : Sheet) : String :=
  rulesText s.rules

/-- A layer with its rules. -/
def layerText (layer : Layer) (rules : List Rule) : String :=
  "\n" ++ block ("@layer " ++ layer.name) ("\n" ++ rulesText rules ++ "\n")

/-- The statement that puts the layers in order. -/
def layerStatement (layers : List Layer) : String :=
  "@layer " ++ String.intercalate ", " (layers.map Layer.name) ++ ";"

/-- The sheet in layers. -/
def layered (s : Sheet) : String :=
  if s.layers.isEmpty then ""
  else
    layerStatement (s.layers.map Prod.fst) ++
      String.join (s.layers.map fun bucket => layerText bucket.1 bucket.2)

/-- The text of the sheet. -/
def text (s : Sheet) (useLayers : Bool) : String :=
  if useLayers then s.layered else s.flat

end Sheet

/-- The stylesheet of the given rules, as the options ask for. -/
def stylesheet (options : Options) (rules : List Rule) : String :=
  (Sheet.ofRules rules).text options.cssLayers

end AtomicCss
