import AtomicCss.Proofs.Json.Reader
import AtomicCss.Session.Basic

/-!
# Restoring rules from a manifest

The manifest of a list of rules is read back as the same rules in the same order, whatever
characters their texts hold, so that a later build goes on from the same sheet.

* `Rule.document`, `Manifest.document`: the documents that are written.
* `Manifest.ofText?_text`: a written manifest is read as it was, be it of this version or another.
* `Manifest.restores`: what a session has after it has read the manifest of some rules.
-/

namespace AtomicCss

open Json (Denotes Document Member)

namespace Rule

/-- The document of the right-to-left side of a rule. -/
def rtlDocument (r : Rule) : Document :=
  match r.rtl with
  | some rtl => .quoted rtl
  | none => .null

/-- The members of a rule in a manifest. -/
def members (r : Rule) : List (String × Document) :=
  [("class_name", .quoted r.className), ("ltr", .quoted r.ltr), ("rtl", r.rtlDocument),
    ("priority", .natural r.priority.value.toNat)]

/-- The document of a rule in a manifest. -/
def document (r : Rule) : Document :=
  .fields r.members

theorem denotes_rtl (r : Rule) :
    Denotes (match r.rtl with
      | some rtl => Json.quote rtl
      | none => "null") r.rtlDocument := by
  unfold rtlDocument
  cases r.rtl with
  | some rtl => exact Json.denotes_quote rtl
  | none => exact Json.denotes_null

/-- The text of a rule in a manifest is read as its document. -/
theorem denotes_manifestText (r : Rule) : Denotes r.manifestText r.document := by
  refine Json.denotes_writeObject [
    ⟨"class_name", Json.quote r.className, .quoted r.className⟩,
    ⟨"ltr", Json.quote r.ltr, .quoted r.ltr⟩,
    ⟨"rtl", _, r.rtlDocument⟩,
    ⟨"priority", Decimal.natText r.priority.value.toNat, .natural r.priority.value.toNat⟩] ?_
  intro m hm
  simp only [List.mem_cons, List.not_mem_nil, or_false] at hm
  rcases hm with rfl | rfl | rfl | rfl
  · exact Json.denotes_quote _
  · exact Json.denotes_quote _
  · exact r.denotes_rtl
  · exact Json.denotes_natText _

theorem textOrNull?_rtlDocument (r : Rule) : r.rtlDocument.textOrNull? = some r.rtl := by
  unfold rtlDocument
  cases r.rtl with
  | some rtl => exact Document.textOrNull?_quoted rtl
  | none => rfl

/-- The document of a rule is read as the rule. -/
theorem ofDocument?_document (r : Rule) : ofDocument? r.document = some r := by
  show r.document.members? >>= ofMembers? = some r
  rw [document, Document.members?_fields]
  show ofMembers? r.members = some r
  simp [ofMembers?, members, Json.required?, Json.member?, textOrNull?_rtlDocument]

end Rule

namespace Manifest

/-- The document of a manifest. -/
def document (m : Manifest) : Document :=
  .fields [("version", .natural m.version.toNat), ("rules", .array (m.rules.map Rule.document))]

/-- The rules of a manifest are read as their documents. -/
theorem denotes_rules (rules : List Rule) :
    Denotes (Json.writeArray (rules.map Rule.manifestText)) (.array (rules.map Rule.document)) := by
  have h := Json.denotes_writeArray (rules.map fun r => (r.manifestText, r.document)) (by
    intro i hi
    obtain ⟨r, -, rfl⟩ := List.mem_map.1 hi
    exact r.denotes_manifestText)
  rwa [List.map_map, List.map_map] at h

/-- The text of a manifest is read as its document. -/
theorem denotes_text (m : Manifest) : Denotes m.text m.document := by
  refine Json.denotes_writeObject [
    ⟨"version", Decimal.natText m.version.toNat, .natural m.version.toNat⟩,
    ⟨"rules", Json.writeArray (m.rules.map Rule.manifestText),
      .array (m.rules.map Rule.document)⟩] ?_
  intro n hn
  simp only [List.mem_cons, List.not_mem_nil, or_false] at hn
  rcases hn with rfl | rfl
  · exact Json.denotes_natText _
  · exact denotes_rules m.rules

/-- The rules of a manifest are read one after the other. -/
theorem rulesOfDocument?_array (rules : List Rule) :
    rulesOfDocument? (.array (rules.map Rule.document)) = some rules := by
  show (rules.map Rule.document).mapM Rule.ofDocument? = some rules
  induction rules with
  | nil => rfl
  | cons r rules ih =>
    rw [List.map_cons, List.mapM_cons, Rule.ofDocument?_document, ih]
    rfl

theorem ofDocument?_document (m : Manifest) : ofDocument? m.document = some m := by
  show (do
    let members ← m.document.members?
    let version ← Json.required? Document.word32? "version" members
    let rules ← Json.required? rulesOfDocument? "rules" members
    return (⟨version, rules⟩ : Manifest)) = some m
  rw [document, Document.members?_fields]
  simp [Json.required?, Json.member?, rulesOfDocument?_array]

/-- A written manifest is read as it was. -/
theorem ofText?_text (m : Manifest) : ofText? m.text = some m := by
  rw [ofText?, m.denotes_text.ofText?]
  exact ofDocument?_document m

/-- All rules of a manifest that was just written can be used. -/
theorem usableRules_ofRules (rules : List Rule) : (ofRules rules).usableRules = rules :=
  rfl

/-- The manifest of rules can be read, and it gives the same rules in the same order. A session that
restores it has these rules after its own, without a warning, and a new session has their sheet. -/
theorem restores (rules : List Rule) :
    (ofText? (ofRules rules).text).map usableRules = some rules ∧
    (∀ s : Session, s.restore (ofRules rules).text = (.ok (rules.length, []), s.append rules)) ∧
    ∀ options, ((Session.start options).restore (ofRules rules).text).2.sheet =
      Sheet.ofRules rules := by
  have hrestore : ∀ s : Session,
      s.restore (ofRules rules).text = (.ok (rules.length, []), s.append rules) := by
    intro s
    rw [Session.restore, ofText?_text]
    rfl
  refine ⟨?_, hrestore, ?_⟩
  · rw [ofText?_text, Option.map_some, usableRules_ofRules]
  · intro options
    rw [hrestore]
    rfl

end Manifest

end AtomicCss
