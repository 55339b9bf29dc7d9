import AtomicCss.Condition
import AtomicCss.Proofs.Text

/-!
# Conditions and their texts

A condition that is read off a text is determined by it, and the text begins with the marks of its
kind.

* `Condition.IsRead`: the condition is the one that its own text stands for.
* `Condition.Plain`: a pseudo-class, a pseudo-element or an at-rule whose text can be told from what
  follows it.
-/

namespace AtomicCss.Condition

/-- What a text stands for, and how it begins. -/
theorem ofText_cases (t : String) :
    (t.toList.head? = some ':' ∧ (ofText t = .pseudoClass t ∨ ofText t = .pseudoElement t)) ∨
      (t.toList.head? = some '@' ∧ ∃ kind, ofText t = .atRule kind t) ∨ ofText t = .other t := by
  unfold ofText
  split
  case h_1 rest hcs =>
    split
    · exact .inl ⟨by rw [hcs]; rfl, .inr rfl⟩
    · exact .inr (.inr rfl)
  case h_2 rest _ hcs =>
    split
    · exact .inl ⟨by rw [hcs]; rfl, .inl rfl⟩
    · exact .inr (.inr rfl)
  case h_3 rest hcs =>
    split
    · exact .inr (.inl ⟨by rw [hcs]; rfl, _, rfl⟩)
    · exact .inr (.inr rfl)
  case h_4 => exact .inr (.inr rfl)

theorem text_ofText (t : String) : (ofText t).text = t := by
  obtain ⟨-, h | h⟩ | ⟨-, kind, h⟩ | h := ofText_cases t <;> rw [h] <;> rfl

/-- The condition is the one that its text stands for. -/
def IsRead (c : Condition) : Prop :=
  ofText c.text = c

/-- A condition made from a key has the form that reading its text gives. -/
theorem isRead_ofKey (key : String) : (ofKey key).IsRead := by
  unfold IsRead ofKey
  rw [text_ofText]

/-- The conditions of a path that is read off texts are determined by the texts. -/
theorem map_ofText_texts {path : List Condition} (h : ∀ c ∈ path, c.IsRead) :
    (texts path).map ofText = path := by
  rw [texts, List.map_map]
  exact (List.map_congr_left h).trans (List.map_id path)

/-! ### Plain conditions -/

/-- A character that begins a condition. -/
def isConditionMark (c : Char) : Bool :=
  c == ':' || c == '@'

/-- The character that begins an at-rule. -/
def isAtMark (c : Char) : Bool :=
  c == '@'

/-- A pseudo-class, a pseudo-element or an at-rule that ends where the next condition begins. Up to
two characters at its beginning are marks of its own. -/
def Plain : Condition → Prop
  | .pseudoClass t => Text.StandsAlone isConditionMark 2 t.toList
  | .pseudoElement t => Text.StandsAlone isConditionMark 2 t.toList
  | .atRule _ t => Text.StandsAlone isAtMark 2 t.toList
  | .other _ => False

instance : DecidablePred Plain
  | .pseudoClass t => inferInstanceAs (Decidable (Text.StandsAlone _ _ t.toList))
  | .pseudoElement t => inferInstanceAs (Decidable (Text.StandsAlone _ _ t.toList))
  | .atRule _ t => inferInstanceAs (Decidable (Text.StandsAlone _ _ t.toList))
  | .other _ => inferInstanceAs (Decidable False)

/-- A plain selector stands alone in a row of conditions and starts with a colon. -/
theorem Plain.selector {c : Condition} (h : c.Plain) (hread : c.IsRead)
    (hc : c.isAtRule = false) :
    Text.StandsAlone isConditionMark 2 c.text.toList ∧ c.text.toList.head? = some ':' := by
  unfold IsRead at hread
  obtain ⟨hhead, hof | hof⟩ | ⟨-, kind, hof⟩ | hof := ofText_cases c.text
  · rw [← hread, hof] at h
    exact ⟨h, hhead⟩
  · rw [← hread, hof] at h
    exact ⟨h, hhead⟩
  · rw [← hread, hof] at hc
    cases hc
  · rw [← hread, hof] at h
    cases h

/-- A plain at-rule stands alone in a row of conditions and starts with an at sign. -/
theorem Plain.atRule {c : Condition} (h : c.Plain) (hread : c.IsRead) (hc : c.isAtRule = true) :
    Text.StandsAlone isAtMark 2 c.text.toList ∧ c.text.toList.head? = some '@' := by
  unfold IsRead at hread
  obtain ⟨-, hof | hof⟩ | ⟨hhead, kind, hof⟩ | hof := ofText_cases c.text
  · rw [← hread, hof] at hc
    cases hc
  · rw [← hread, hof] at hc
    cases hc
  · rw [← hread, hof] at h
    exact ⟨h, hhead⟩
  · rw [← hread, hof] at h
    cases h

end AtomicCss.Condition
