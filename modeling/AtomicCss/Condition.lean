import AtomicCss.Value.Reader

/-!
# Conditions

A declaration may apply only under conditions: on a pseudo-class, inside a pseudo-element, within an
at-rule. A key of a conditional map stands for one condition, and the keys on the way to a value
form a path, the outermost first.

* `Condition.ofKey` classifies a key by what it starts with, after its blanks are squeezed.
* `Condition.text` is the condition as it stands in CSS.
-/

namespace AtomicCss

/-- The at-rules that differ in weight. -/
inductive AtRuleKind where
  /-- A media query. -/
  | media
  /-- A query for a supported feature. -/
  | supports
  /-- A query on a container. -/
  | container
  /-- The style from which an element starts. -/
  | startingStyle
  /-- Any other at-rule. -/
  | other
deriving DecidableEq, Repr

/-- The kind of the at-rule with the given name, which is in small letters. -/
def AtRuleKind.ofName (name : String) : AtRuleKind :=
  if name = "@media" then .media
  else if name = "@supports" then .supports
  else if name = "@container" then .container
  else if name = "@starting-style" then .startingStyle
  else .other

/-- Something under which a declaration applies. -/
inductive Condition where
  /-- A pseudo-class with its colon. -/
  | pseudoClass (text : String)
  /-- A pseudo-element with its two colons. -/
  | pseudoElement (text : String)
  /-- An at-rule. -/
  | atRule (kind : AtRuleKind) (text : String)
  /-- Anything else; it is appended to the selector as it is. -/
  | other (text : String)
deriving DecidableEq, Repr

namespace Condition

/-- Whether the characters start with a name. -/
def startsWithName (cs : List Char) : Bool :=
  (readName cs).isSome

/-- Classifies a condition by its text. -/
def ofText (text : String) : Condition :=
  match text.toList with
  | ':' :: ':' :: rest => if startsWithName rest then .pseudoElement text else .other text
  | ':' :: rest => if startsWithName rest then .pseudoClass text else .other text
  | '@' :: rest =>
    match readName rest with
    | some (name, _) =>
      .atRule (.ofName (Text.asciiLower ("@" ++ String.ofList name))) text
    | none => .other text
  | _ => .other text

/-- The condition for a key of a conditional map. -/
def ofKey (key : String) : Condition :=
  ofText (Text.squeeze key)

/-- The condition as it stands in CSS. -/
def text : Condition → String
  | .pseudoClass text => text
  | .pseudoElement text => text
  | .atRule _ text => text
  | .other text => text

/-- The name of a pseudo-class or a pseudo-element without arguments. -/
def pseudoName? : Condition → Option String
  | .pseudoClass text => some (String.ofList (text.toList.takeWhile (· != '(')))
  | .pseudoElement text => some (String.ofList (text.toList.takeWhile (· != '(')))
  | _ => none

/-- Whether the condition is an at-rule. -/
def isAtRule : Condition → Bool
  | .atRule _ _ => true
  | _ => false

/-- Whether the condition is a pseudo-element. -/
def isPseudoElement : Condition → Bool
  | .pseudoElement _ => true
  | _ => false

/-- The bit that stands for the category of the condition. -/
def categoryBit : Condition → Nat
  | .pseudoClass _ => 1
  | .pseudoElement _ => 2
  | .atRule _ _ => 4
  | .other _ => 8

/-- The bits of all categories that occur on a path. -/
def categoryBits (path : List Condition) : Nat :=
  path.foldl (fun bits c => bits ||| c.categoryBit) 0

/-- The texts of the conditions on a path. -/
def texts (path : List Condition) : List String :=
  path.map text

end Condition

end AtomicCss
