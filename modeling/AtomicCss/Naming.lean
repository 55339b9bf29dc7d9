import AtomicCss.Declaration
import AtomicCss.Digest.Base36
import AtomicCss.Options

/-!
# Names made from contents

A name is made from the digest of a text that determines what it names, so that two builds that
never meet agree on it.

* `Declaration.canonicalText` is the text that names a declaration. Conditions are sorted, so that
  the order in which they nest does not count.
* `Declaration.className` and `variableName` are the names of classes and of variables.
-/

namespace AtomicCss

/-- Texts in the order of their code points. -/
def sortTexts (l : List String) : List String :=
  l.mergeSort fun s t => decide (s ≤ t)

/-- The texts of the at-rules on a path, sorted. -/
def atRuleTexts (path : List Condition) : List String :=
  sortTexts ((path.filter Condition.isAtRule).map Condition.text)

/-- The texts of the selectors on a path, sorted. -/
def selectorTexts (path : List Condition) : List String :=
  sortTexts ((path.filter (!·.isAtRule)).map Condition.text)

/-- The part that conditions have in the text that names a declaration. -/
def modifierText (path : List Condition) : String :=
  if path.isEmpty then "null"
  else String.join (selectorTexts path) ++ String.join (atRuleTexts path)

/-- A name made from a text. -/
def prefixedName (options : Options) (s : String) : String :=
  options.classNamePrefix ++ shortName s

namespace Declaration

/-- The text that names a declaration. -/
def canonicalText (d : Declaration) : String :=
  "<>" ++ d.property ++ String.intercalate ", " d.values ++ modifierText d.conditions

/-- The name of the class for a declaration. If asked for, it shows the property. -/
def className (options : Options) (d : Declaration) : String :=
  let name := prefixedName options d.canonicalText
  if options.debug then
    String.ofList (d.property.toList.dropWhile (· == '-')) ++ "-" ++ name
  else name

end Declaration

/-- The text that names a variable of a group. -/
def variableText (group key : String) : String :=
  "vars:" ++ group ++ "." ++ key

/-- The name of a variable of a group. -/
def variableName (options : Options) (group key : String) : String :=
  "--" ++ prefixedName options (variableText group key)

end AtomicCss
