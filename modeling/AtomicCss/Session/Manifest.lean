import AtomicCss.Json.Reader
import AtomicCss.Json.Writer
import AtomicCss.Rule

/-!
# Manifests

A manifest is the JSON text of a list of rules, by which a later build takes up where an earlier one
left off. Rules of another version of the format are not used.

* `Manifest.text` writes a manifest and `Manifest.ofText?` reads one.
-/

namespace AtomicCss

/-- A list of rules with the version of the format. -/
structure Manifest where
  /-- The version of the format. -/
  version : UInt32
  /-- The rules. -/
  rules : List Rule
deriving DecidableEq, Repr

namespace Rule

/-- A rule as a JSON text. -/
def manifestText (r : Rule) : String :=
  Json.writeObject [
    ("class_name", Json.quote r.className),
    ("ltr", Json.quote r.ltr),
    ("rtl", match r.rtl with
      | some rtl => Json.quote rtl
      | none => "null"),
    ("priority", Decimal.natText r.priority.value.toNat)]

/-- Reads a rule from the members of an object; what is missing on the right-to-left side is
absent. -/
def ofMembers? (members : List (String × Json.Document)) : Option Rule := do
  let className ← Json.required? Json.Document.text? "class_name" members
  let ltr ← Json.required? Json.Document.text? "ltr" members
  let rtl ← Json.member? Json.Document.textOrNull? "rtl" members
  let priority ← Json.required? Json.Document.word32? "priority" members
  return ⟨className, ltr, rtl.join, ⟨priority⟩⟩

/-- Reads a rule from an object, or from an array of its four fields. -/
def ofDocument? (d : Json.Document) : Option Rule :=
  match d with
  | .array [className, ltr, rtl, priority] => do
    return ⟨← className.text?, ← ltr.text?, ← rtl.textOrNull?, ⟨← priority.word32?⟩⟩
  | .array _ => none
  | _ => d.members? >>= ofMembers?

end Rule

namespace Manifest

/-- The version of the format that is written. -/
def currentVersion : UInt32 := 1

/-- The manifest of a list of rules. -/
def ofRules (rules : List Rule) : Manifest :=
  ⟨currentVersion, rules⟩

/-- A manifest as a JSON text. -/
def text (m : Manifest) : String :=
  Json.writeObject [
    ("version", Decimal.natText m.version.toNat),
    ("rules", Json.writeArray (m.rules.map Rule.manifestText))]

/-- Reads a list of rules. -/
def rulesOfDocument? (d : Json.Document) : Option (List Rule) := do
  (← d.items?).mapM Rule.ofDocument?

/-- Reads a manifest from an object, or from an array of its two fields. -/
def ofDocument? (d : Json.Document) : Option Manifest :=
  match d with
  | .array [version, rules] => do
    return ⟨← version.word32?, ← rulesOfDocument? rules⟩
  | .array _ => none
  | _ => do
    let members ← d.members?
    let version ← Json.required? Json.Document.word32? "version" members
    let rules ← Json.required? rulesOfDocument? "rules" members
    return ⟨version, rules⟩

/-- Reads a manifest. -/
def ofText? (source : String) : Option Manifest :=
  Json.Document.ofText? source >>= ofDocument?

/-- Whether the rules can be used. -/
def isCurrent (m : Manifest) : Bool :=
  m.version == currentVersion

/-- The rules that can be used. -/
def usableRules (m : Manifest) : List Rule :=
  if m.isCurrent then m.rules else []

/-- The warning for rules that cannot be used. -/
def warnings (m : Manifest) : List String :=
  if m.isCurrent then []
  else
    ["discarding rule manifest version " ++ Decimal.natText m.version.toNat ++ " (expected " ++
      Decimal.natText currentVersion.toNat ++ ")"]

end Manifest

end AtomicCss
