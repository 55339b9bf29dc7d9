import AtomicCss.Direction
import AtomicCss.Naming
import AtomicCss.Priority

/-!
# Atomic rules

A rule is the CSS for one declaration: a class, its text for left-to-right documents, its text for
right-to-left documents if that differs, and its priority.

The selector repeats the class once for every at-rule around it, so that a rule under conditions
outranks the same rule without them. Pseudo-classes and other selectors follow in the order of the
path, pseudo-elements come last, and the at-rules are wrapped around, sorted, the first one
outermost.
-/

namespace AtomicCss

/-- The compiled form of one declaration. -/
structure Rule where
  /-- The name of the class. -/
  className : String
  /-- The text for left-to-right documents, or for all. -/
  ltr : String
  /-- The text for right-to-left documents, if it differs. -/
  rtl : Option String
  /-- The place in the stylesheet. -/
  priority : Priority
deriving DecidableEq, Repr

namespace Rule

/-- The layer of a rule. -/
def layer (r : Rule) : Layer :=
  r.priority.layer

/-- The texts of a rule, left to right first. -/
def texts (r : Rule) : List String :=
  r.ltr :: r.rtl.toList

end Rule

/-! ### Texts -/

/-- A block with the given head. -/
def block (head body : String) : String :=
  head ++ "\x7b" ++ body ++ "\x7d"

/-- The names under which browsers know the handle of a slider. -/
def thumbSelectors : List String :=
  ["::-webkit-slider-thumb", "::-moz-range-thumb", "::-ms-thumb"]

/-- The selectors that a pseudo-element stands for. -/
def pseudoElementSelectors (c : Condition) : List String :=
  if c.text = "::thumb" then thumbSelectors else [c.text]

/-- The number of at-rules on a path. -/
def atRuleCount (path : List Condition) : Nat :=
  path.countP Condition.isAtRule

/-- The selector without pseudo-elements. -/
def plainSelector (base : String) (path : List Condition) : String :=
  String.join (List.replicate (atRuleCount path + 1) base) ++
    String.join ((path.filter fun c => !c.isAtRule && !c.isPseudoElement).map Condition.text)

/-- The selectors of a rule. -/
def selectors (base : String) (path : List Condition) : List String :=
  (path.filter Condition.isPseudoElement).foldl
    (fun heads c => heads.flatMap fun head => (pseudoElementSelectors c).map (head ++ ·))
    [plainSelector base path]

/-- A rule within its at-rules. -/
def wrapAtRules (rule : String) (path : List Condition) : String :=
  (atRuleTexts path).foldr block rule

namespace Declaration

/-- The property with each of its values. -/
def body (d : Declaration) : String :=
  String.intercalate ";" (d.values.map fun value => d.property ++ ":" ++ value)

/-- The text of a rule; `scope` is applied to each selector. -/
def scopedText (scope : String → String) (base : String) (d : Declaration) : String :=
  wrapAtRules
    (block (String.intercalate "," ((selectors base d.conditions).map scope)) d.body) d.conditions

/-- The text of a rule for the given base selector. -/
def ruleText (base : String) (d : Declaration) : String :=
  d.scopedText id base

/-- The rule for a declaration; there is none for one that unsets its property. -/
def rule? (options : Options) (d : Declaration) : Option Rule :=
  if d.isUnset then none
  else
    let className := d.className options
    let base := "." ++ className
    let priority := Priority.ofDeclaration d.property d.conditions
    match d.rtl? options with
    | none => some ⟨className, (d.ltr options).ruleText base, none, priority⟩
    | some rtl =>
      some ⟨className, (d.ltr options).scopedText Direction.ltr.scope base,
        some (rtl.scopedText Direction.rtl.scope base), priority⟩

end Declaration

end AtomicCss
