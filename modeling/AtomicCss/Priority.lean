import AtomicCss.Condition
import AtomicCss.Keyed
import AtomicCss.Property.Rank

/-!
# Priorities and layers

Where a rule stands in the stylesheet depends on its property and its conditions alone:

    priority = 10 + 10 · score + rank

The score is the sum of the weights of the conditions. The selectors among them count for at most
9999 together, and an at-rule counts for 10000 at least, so a rule within an at-rule comes after
every rule that is not. The score also tells the cascade layer of a rule.
-/

namespace AtomicCss

/-- The weight of a selector that is not in the table of pseudo-classes. -/
def genericWeight : Nat := 40

/-- The weight of a pseudo-element. -/
def pseudoElementWeight : Nat := 5000

/-- What the selectors of a path count for at most. -/
def selectorLimit : Nat := 9999

/-- The weights of pseudo-classes. -/
def pseudoClassWeights : List (String × Nat) :=
  [(":is", 40), (":where", 40), (":not", 40), (":has", 45), (":dir", 50), (":lang", 51),
    (":first-child", 52), (":first-of-type", 53), (":last-child", 54), (":last-of-type", 55),
    (":only-child", 56), (":only-of-type", 57), (":nth-child", 60), (":nth-last-child", 61),
    (":nth-of-type", 62), (":nth-last-of-type", 63), (":empty", 70), (":link", 80),
    (":any-link", 81), (":local-link", 82), (":target-within", 83), (":target", 84),
    (":visited", 85), (":enabled", 91), (":disabled", 92), (":required", 93), (":optional", 94),
    (":read-only", 95), (":read-write", 96), (":placeholder-shown", 97), (":in-range", 98),
    (":out-of-range", 99), (":default", 100), (":checked", 101), (":indeterminate", 101),
    (":blank", 102), (":valid", 103), (":invalid", 104), (":user-invalid", 105),
    (":autofill", 110), (":picture-in-picture", 120), (":modal", 121), (":fullscreen", 122),
    (":paused", 123), (":playing", 124), (":current", 125), (":past", 126), (":future", 127),
    (":hover", 130), (":focus-within", 140), (":focus", 150), (":focus-visible", 160),
    (":active", 170)]

namespace Condition

/-- The weight that the table gives to a pseudo-class. -/
def tableWeight? : Condition → Option Nat
  | .pseudoClass text => (pseudoClass text).pseudoName?.bind (Keyed.get? · pseudoClassWeights)
  | _ => none

/-- Whether the condition is a pseudo-class of the table. -/
def isKnownPseudoClass (c : Condition) : Bool :=
  c.tableWeight?.isSome

/-- Whether the condition has a weight of its own. -/
def isRecognized : Condition → Bool
  | .pseudoClass text => (pseudoClass text).isKnownPseudoClass
  | .other _ => false
  | _ => true

/-- What an at-rule counts for. -/
def atRuleWeight : AtRuleKind → Nat
  | .supports => 10000
  | .media => 20000
  | .container => 30000
  | .startingStyle => 10000
  | .other => 10000

/-- What a condition counts for. -/
def weight : Condition → Nat
  | .pseudoClass text => (pseudoClass text).tableWeight?.getD genericWeight
  | .pseudoElement _ => pseudoElementWeight
  | .atRule kind _ => atRuleWeight kind
  | .other _ => genericWeight

/-- The sum of the weights of a list of conditions. -/
def totalWeight (cs : List Condition) : Nat :=
  (cs.map weight).foldr (· + ·) 0

/-- The score of a path. -/
def score (path : List Condition) : Nat :=
  min (totalWeight (path.filter (!·.isAtRule))) selectorLimit + totalWeight (path.filter isAtRule)

end Condition

/-- A cascade layer. -/
inductive Layer where
  /-- Rules without conditions. -/
  | base
  /-- Rules on pseudo-classes and other selectors. -/
  | pseudoClass
  /-- Rules on pseudo-elements. -/
  | pseudoElement
  /-- Rules within at-rules. -/
  | atRule
deriving DecidableEq, Repr

namespace Layer

/-- The layers in cascade order. -/
def all : List Layer :=
  [.base, .pseudoClass, .pseudoElement, .atRule]

/-- The name of a layer in the stylesheet. -/
def name : Layer → String
  | .base => "base"
  | .pseudoClass => "pseudo-class"
  | .pseudoElement => "pseudo-element"
  | .atRule => "at-rule"

/-- The place of a layer in cascade order. -/
def index : Layer → Nat
  | .base => 0
  | .pseudoClass => 1
  | .pseudoElement => 2
  | .atRule => 3

/-- The layer of a score. -/
def ofScore (score : Nat) : Layer :=
  if score < genericWeight then .base
  else if score < pseudoElementWeight then .pseudoClass
  else if score ≤ selectorLimit then .pseudoElement
  else .atRule

end Layer

/-- The place of a rule in the stylesheet; a lower priority comes first. -/
structure Priority where
  /-- The priority as a 32-bit number. -/
  value : UInt32
deriving DecidableEq, Repr

namespace Priority

/-- The priority of rules that define variables. -/
def variableRules : Priority := ⟨0⟩

/-- The priority of themes, which override variables. -/
def theme : Priority := ⟨1⟩

/-- The priority of rules that are named by other rules. -/
def auxiliary : Priority := ⟨0⟩

/-- The priority of a property under the conditions of a path. -/
def ofDeclaration (property : String) (path : List Condition) : Priority :=
  ⟨(10 + 10 * Condition.score path + Property.rank property).toUInt32⟩

/-- The layer of the rules with this priority. -/
def layer (p : Priority) : Layer :=
  .ofScore ((p.value.toNat - 10) / 10)

end Priority

end AtomicCss
