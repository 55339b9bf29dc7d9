import AtomicCss.Proofs.Decimal.Text
import AtomicCss.Proofs.Json.Writer
import AtomicCss.Proofs.Text

/-!
# Reading written JSON texts

A written text is read as the document that was written, and reading stops where the text does:
every text here is followed by nothing, or by a mark that ends an item of a list.

* `Json.Denotes text d`: the text is read as the document `d`. There is one rule for each way of
  writing: `denotes_null`, `denotes_quote`, `denotes_natText`, `denotes_writeArray` and
  `denotes_writeObject`.
* `Json.Document.quoted`, `Json.Document.natural`, `Json.Document.fields`: the documents of written
  strings, numbers and objects, and what is found in them.
* `Json.Denotes.ofText?`: the whole text is read.
-/

namespace AtomicCss

/-! ### Digits -/

namespace Decimal

/-- The digits of a number are read as that number. -/
theorem ofDigits_digits (n : Nat) : ofDigits (digits n) = n :=
  Nat.ofDigitChars_toDigits (by decide) (by decide)

/-- The first digit is zero for zero only. -/
theorem eq_zero_of_head_digits {n : Nat} (h : (digits n).head? = some '0') : n = 0 := by
  induction n using Nat.strongRecOn with
  | ind n ih =>
    by_cases hlt : n < 10
    · have hdigit : ∀ m < 10, Nat.digitChar m = '0' → m = 0 := by decide
      rw [digits, Nat.toDigits_of_lt_base hlt] at h
      exact hdigit n hlt (Option.some.inj h)
    · rw [digits, Nat.toDigits_of_base_le (by decide) (by omega)] at h
      -- The digits before the last one are those of the tenth part.
      obtain ⟨c, cs, hcs⟩ := List.exists_cons_of_ne_nil (digits_ne_nil (n / 10))
      rw [digits] at hcs
      rw [hcs] at h
      have hzero := ih (n / 10) (by omega) (by rw [digits, hcs]; exact h)
      omega

end Decimal

namespace Json

open Text (Stops)

/-! ### What a text denotes -/

/-- Nothing follows, or a mark that ends an item of a list. -/
def AtEnd (rest : List Char) : Prop :=
  ∀ c ∈ rest.head?, isEndMark c = true

theorem atEnd_nil : AtEnd [] := by
  intro c hc
  cases hc

theorem atEnd_cons {c : Char} {cs : List Char} (h : isEndMark c = true) : AtEnd (c :: cs) := by
  intro d hd
  rwa [← Option.mem_some.1 hd]

/-- Behind the first item of a row there is a comma or the mark that ends the row. -/
theorem atEnd_rowTail (mark : Char) (h : isEndMark mark = true) (texts : List String)
    (rest : List Char) : AtEnd (rowTail texts ++ mark :: rest) := by
  cases texts with
  | nil => exact atEnd_cons h
  | cons text texts => exact atEnd_cons rfl

/-- What ends an item does not continue a number. -/
theorem AtEnd.stops {rest : List Char} (h : AtEnd rest) {p : Char → Bool}
    (hp : [',', ']', '\x7d'].all (!p ·) = true) : Stops p rest := by
  intro c hc
  have hmark : c = ',' ∨ c = ']' ∨ c = '\x7d' := by simpa [isEndMark, or_assoc] using h c hc
  have hall := List.all_eq_true.1 hp c (by simpa using hmark)
  simpa using hall

/-- The text begins with neither a blank nor a mark that ends an item. -/
def Begins (cs : List Char) : Prop :=
  ∃ c t, cs = c :: t ∧ isSpace c = false ∧ isEndMark c = false

theorem Begins.append {cs : List Char} (h : Begins cs) (rest : List Char) :
    Begins (cs ++ rest) := by
  obtain ⟨c, t, rfl, hspace, hend⟩ := h
  exact ⟨c, t ++ rest, rfl, hspace, hend⟩

theorem skipSpace_cons {c : Char} {cs : List Char} (h : isSpace c = false) :
    skipSpace (c :: cs) = c :: cs := by
  simp [skipSpace, h]

/-- No white space is skipped in front of a text that begins. -/
theorem Begins.skipSpace_eq {cs : List Char} (h : Begins cs) : skipSpace cs = cs := by
  obtain ⟨c, t, rfl, hspace, -⟩ := h
  exact skipSpace_cons hspace

/-- A text that begins is not taken for the end of a list. -/
theorem Begins.ne_cons {cs : List Char} (h : Begins cs) (mark : Char)
    (hmark : isEndMark mark = true) (t : List Char) : cs ≠ mark :: t := by
  obtain ⟨c, u, rfl, -, hend⟩ := h
  intro heq
  rw [(List.cons.inj heq).1, hmark] at hend
  cases hend

/-- The text is read as the document, wherever in a document it may stand. Two steps for each
character are enough. -/
structure Denotes (text : String) (d : Document) : Prop where
  begins : Begins text.toList
  reads : ∀ (steps : Nat) (rest : List Char), 2 * text.toList.length ≤ steps → AtEnd rest →
    readValue steps (text.toList ++ rest) = some (d, rest)

/-! ### Values that are no lists -/

/-- A text is read as a value that is no list if its first character says so. -/
theorem Denotes.of_scalar {text : String} {d : Document} {c : Char} {cs : List Char}
    (htext : text.toList = c :: cs) (hspace : isSpace c = false) (hend : isEndMark c = false)
    (harray : c ≠ '[') (hobject : c ≠ '\x7b')
    (h : ∀ rest, AtEnd rest → readScalar (text.toList ++ rest) = some (d, rest)) :
    Denotes text d where
  begins := ⟨c, cs, htext, hspace, hend⟩
  reads steps rest hsteps hrest := by
    have hscalar := h rest hrest
    rw [htext] at hsteps hscalar ⊢
    obtain ⟨steps, rfl⟩ : ∃ n, steps = n + 1 := ⟨steps - 1, by simp at hsteps; omega⟩
    rw [List.cons_append] at hscalar ⊢
    rw [readValue, skipSpace_cons hspace]
    split
    · next heq => exact absurd (List.cons.inj heq).1 harray
    · next heq => exact absurd (List.cons.inj heq).1 hobject
    · exact hscalar

theorem denotes_null : Denotes "null" .null :=
  .of_scalar rfl rfl rfl (by decide) (by decide) fun _ _ => rfl

/-- The pieces of a written text. -/
def pieces (s : String) : List Piece :=
  s.toList.map writtenAs

/-- The pieces of a written text are put together to the text. -/
theorem textOf?_pieces (s : String) : textOf? (pieces s) = some s := by
  rw [textOf?, pieces, decode_writtenAs, Option.map_some, String.ofList_toList]

/-- The document of a written string. -/
def Document.quoted (s : String) : Document :=
  .string (pieces s)

/-- A quoted text is read back, whatever characters it has. -/
theorem denotes_quote (s : String) : Denotes (quote s) (.quoted s) := by
  refine .of_scalar (toList_quote s) rfl rfl (by decide) (by decide) fun rest _ => ?_
  have hread : readString (s.toList.flatMap escape ++ ['"'] ++ rest) = some (pieces s, rest) := by
    rw [List.append_assoc]
    exact readString_quoted s.toList rest
  rw [toList_quote, List.cons_append, readScalar, hread]
  rfl

/-! ### Numbers -/

/-- The digits of a number are read up to the first character that is none. -/
theorem readDigits_digits (n : Nat) {rest : List Char} (h : Stops Char.isDigit rest) :
    readDigits (Decimal.digits n ++ rest) = some (Decimal.digits n, rest) := by
  have hall : ∀ c ∈ Decimal.digits n, c.isDigit = true := fun c => Decimal.isDigit_of_mem_digits
  rw [readDigits, List.takeWhile_append_of_pos hall, List.dropWhile_append_of_pos hall,
    h.takeWhile, h.dropWhile, List.append_nil]
  split
  · next hnil => exact absurd hnil (Decimal.digits_ne_nil n)
  · rfl

/-- Only zero is written with a zero in front. -/
theorem readWhole_digits (n : Nat) {rest : List Char} (h : Stops Char.isDigit rest) :
    readWhole (Decimal.digits n ++ rest) = some (Decimal.digits n, rest) := by
  unfold readWhole
  split
  · next t heq =>
    obtain ⟨c, cs, hcs⟩ := List.exists_cons_of_ne_nil (Decimal.digits_ne_nil n)
    rw [hcs, List.cons_append] at heq
    obtain ⟨rfl, hrest⟩ := List.cons.inj heq
    obtain rfl := Decimal.eq_zero_of_head_digits (by rw [hcs]; rfl)
    have hnil : cs = [] := (List.cons.inj hcs).2.symm
    rw [hnil, List.nil_append] at hrest
    rw [hrest]
    rfl
  · exact readDigits_digits n h

theorem readFraction_eq {rest : List Char} (h : Stops (· == '.') rest) :
    readFraction rest = some (none, rest) := by
  unfold readFraction
  split
  · exact absurd (Text.stops_cons.1 h) (by decide)
  · rfl

theorem readExponent_eq {rest : List Char} (h : Stops (fun c => c == 'e' || c == 'E') rest) :
    readExponent rest = some (none, rest) := by
  cases rest with
  | nil => rfl
  | cons c rest =>
    rw [readExponent, if_neg]
    simpa using Text.stops_cons.1 h

theorem ne_of_isDigit {c d : Char} (hc : c.isDigit = true) (hd : d.isDigit = false) : c ≠ d := by
  rintro rfl
  rw [hd] at hc
  cases hc

/-- A text that begins with a digit is read as a number. -/
theorem readScalar_of_isDigit {c : Char} {cs : List Char} (h : c.isDigit = true) :
    readScalar (c :: cs) = readNumeral false (c :: cs) := by
  unfold readScalar
  split
  · next heq => exact absurd (List.cons.inj heq).1 (ne_of_isDigit h rfl)
  · next heq => exact absurd (List.cons.inj heq).1 (ne_of_isDigit h rfl)
  · next heq => exact absurd (List.cons.inj heq).1 (ne_of_isDigit h rfl)
  · next heq => exact absurd (List.cons.inj heq).1 (ne_of_isDigit h rfl)
  · next heq => exact absurd (List.cons.inj heq).1 (ne_of_isDigit h rfl)
  · rfl

/-- The document of a written number. -/
def Document.natural (n : Nat) : Document :=
  .number ⟨false, Decimal.digits n, none, none⟩

/-- A written number is read back. -/
theorem denotes_natText (n : Nat) : Denotes (Decimal.natText n) (.natural n) := by
  obtain ⟨c, cs, hcs⟩ := List.exists_cons_of_ne_nil (Decimal.digits_ne_nil n)
  have htext : (Decimal.natText n).toList = Decimal.digits n := String.toList_ofList
  have hdigit : c.isDigit = true := Decimal.isDigit_of_mem_digits (n := n) (by simp [hcs])
  have hne : ∀ d : Char, d.isDigit = false → c ≠ d := fun d hd => ne_of_isDigit hdigit hd
  refine .of_scalar (htext.trans hcs) ?_ ?_ (hne _ rfl) (hne _ rfl) fun rest hrest => ?_
  · simp [isSpace, hne]
  · simp [isEndMark, hne]
  · rw [htext, hcs, List.cons_append, readScalar_of_isDigit hdigit, ← List.cons_append, ← hcs,
      readNumeral, readWhole_digits n (hrest.stops (by decide))]
    show (readFraction rest).bind _ = _
    rw [readFraction_eq (hrest.stops (by decide))]
    show (readExponent rest).bind _ = _
    rw [readExponent_eq (hrest.stops (by decide))]
    rfl

/-! ### Arrays -/

theorem row_append (text : String) (texts : List String) (rest : List Char) :
    row (text :: texts) ++ rest = text.toList ++ (rowTail texts ++ rest) := by
  rw [row, List.append_assoc]

theorem length_row (text : String) (texts : List String) :
    (row (text :: texts)).length = text.toList.length + (rowTail texts).length := by
  rw [row, List.length_append]

theorem length_rowTail (text : String) (texts : List String) :
    (rowTail (text :: texts)).length = (row (text :: texts)).length + 1 := by
  rw [rowTail_cons, List.length_cons, row]

theorem readItems_last {steps : Nat} {cs rest : List Char} {d : Document}
    (h : readValue steps cs = some (d, ']' :: rest)) :
    readItems (steps + 1) cs = some ([d], rest) := by
  rw [readItems, h]
  rfl

/-- Behind a comma reading goes on with the next item. -/
theorem readItems_next {steps : Nat} {cs t : List Char} {d : Document}
    (h : readValue steps cs = some (d, ',' :: t)) :
    readItems (steps + 1) cs = (readItems steps t).map fun r => (d :: r.1, r.2) := by
  rw [readItems, h]
  show (readItems steps t).bind _ = _
  cases readItems steps t <;> rfl

/-- The items of a written array are read one after the other, up to the closing bracket. -/
theorem readItems_row {item : String × Document} {items : List (String × Document)}
    (h : ∀ i ∈ item :: items, Denotes i.1 i.2) (steps : Nat) (rest : List Char)
    (hsteps : 2 * (row ((item :: items).map Prod.fst)).length + 1 ≤ steps) :
    readItems steps (row ((item :: items).map Prod.fst) ++ ']' :: rest) =
      some ((item :: items).map Prod.snd, rest) := by
  obtain ⟨steps, rfl⟩ : ∃ n, steps = n + 1 := ⟨steps - 1, by omega⟩
  rw [List.map_cons, length_row] at hsteps
  have hitem := (h item (by simp)).reads steps _ (by omega)
    (atEnd_rowTail ']' rfl (items.map Prod.fst) rest)
  rw [List.map_cons, row_append]
  induction items generalizing item steps with
  | nil => exact readItems_last hitem
  | cons next items ih =>
    rw [List.map_cons, length_rowTail, length_row] at hsteps
    obtain ⟨steps, rfl⟩ : ∃ n, steps = n + 1 := ⟨steps - 1, by omega⟩
    have hnext := (h next (by simp)).reads steps _ (by omega)
      (atEnd_rowTail ']' rfl (items.map Prod.fst) rest)
    have hitems := ih (fun i hi => h i (by simp [hi])) steps (by omega) hnext
    rw [List.map_cons, rowTail_cons, List.cons_append, List.append_assoc] at hitem ⊢
    rw [readItems_next hitem, hitems]
    rfl

theorem readValue_array {cs : List Char} (h : Begins cs) (steps : Nat) :
    readValue (steps + 1) ('[' :: cs) =
      (readItems steps cs).map fun r => (.array r.1, r.2) := by
  rw [readValue, skipSpace_cons rfl]
  simp only [h.skipSpace_eq]
  split
  · exact absurd rfl (h.ne_cons ']' rfl _)
  · cases readItems steps cs <;> rfl

/-- An array is read as its items. -/
theorem denotes_writeArray (items : List (String × Document)) (h : ∀ i ∈ items, Denotes i.1 i.2) :
    Denotes (writeArray (items.map Prod.fst)) (.array (items.map Prod.snd)) where
  begins := ⟨'[', _, toList_writeArray _, rfl, rfl⟩
  reads steps rest hsteps _ := by
    rw [toList_writeArray] at hsteps ⊢
    simp only [List.length_cons, List.length_append] at hsteps
    obtain ⟨steps, rfl⟩ : ∃ n, steps = n + 1 := ⟨steps - 1, by omega⟩
    rw [List.cons_append, List.append_assoc]
    cases items with
    | nil => rfl
    | cons item items =>
      have hbegins : Begins (row ((item :: items).map Prod.fst) ++ ']' :: rest) := by
        rw [List.map_cons, row_append]
        exact (h item (by simp)).begins.append _
      have hitems := readItems_row h steps rest (by omega)
      show readValue (steps + 1) ('[' :: (row ((item :: items).map Prod.fst) ++ ']' :: rest)) = _
      rw [readValue_array hbegins, hitems]
      rfl

/-! ### Objects -/

/-- The document of a written object. -/
def Document.fields (members : List (String × Document)) : Document :=
  .object (members.map fun m => (pieces m.1, m.2))

/-- A key is read together with the colon behind it. -/
theorem readKey_quote (key : String) (rest : List Char) :
    readKey ((quote key).toList ++ ':' :: rest) = some (pieces key, rest) := by
  have hread : readString (key.toList.flatMap escape ++ ['"'] ++ ':' :: rest) =
      some (pieces key, ':' :: rest) := by
    rw [List.append_assoc]
    exact readString_quoted key.toList (':' :: rest)
  rw [toList_quote, List.cons_append, readKey, skipSpace_cons rfl]
  show (readString (key.toList.flatMap escape ++ ['"'] ++ ':' :: rest)).bind _ = _
  rw [hread]
  rfl

/-- A member of a written object. -/
structure Member where
  /-- The key. -/
  key : String
  /-- The written value. -/
  text : String
  /-- The document of the value. -/
  value : Document

/-- The text of a member. -/
def Member.written (m : Member) : String :=
  writeMember m.key m.text

theorem Member.begins_written (m : Member) : Begins m.written.toList := by
  rw [written, toList_writeMember, toList_quote]
  exact ⟨'"', _, rfl, rfl, rfl⟩

/-- The key of a member is read back, and its value is left to be read. -/
theorem Member.readKey_written (m : Member) (rest : List Char) :
    readKey (m.written.toList ++ rest) = some (pieces m.key, m.text.toList ++ rest) := by
  rw [written, toList_writeMember, List.append_assoc]
  exact readKey_quote m.key (m.text.toList ++ rest)

theorem Member.length_text_le (m : Member) : m.text.toList.length ≤ m.written.toList.length := by
  rw [written, toList_writeMember, List.length_append, List.length_cons]
  omega

theorem readMembers_last {steps : Nat} {cs t rest : List Char} {key : List Piece} {d : Document}
    (hkey : readKey cs = some (key, t)) (h : readValue steps t = some (d, '\x7d' :: rest)) :
    readMembers (steps + 1) cs = some ([(key, d)], rest) := by
  rw [readMembers, hkey]
  show (readValue steps t).bind _ = _
  rw [h]
  rfl

/-- Behind a comma reading goes on with the next member. -/
theorem readMembers_next {steps : Nat} {cs t u : List Char} {key : List Piece} {d : Document}
    (hkey : readKey cs = some (key, t)) (h : readValue steps t = some (d, ',' :: u)) :
    readMembers (steps + 1) cs = (readMembers steps u).map fun r => ((key, d) :: r.1, r.2) := by
  rw [readMembers, hkey]
  show (readValue steps t).bind _ = _
  rw [h]
  show (readMembers steps u).bind _ = _
  cases readMembers steps u <;> rfl

/-- The members of a written object are read one after the other, up to the closing brace. -/
theorem readMembers_row {m : Member} {ms : List Member} (h : ∀ n ∈ m :: ms, Denotes n.text n.value)
    (steps : Nat) (rest : List Char)
    (hsteps : 2 * (row ((m :: ms).map Member.written)).length + 1 ≤ steps) :
    readMembers steps (row ((m :: ms).map Member.written) ++ '\x7d' :: rest) =
      some ((m :: ms).map fun n => (pieces n.key, n.value), rest) := by
  obtain ⟨steps, rfl⟩ : ∃ n, steps = n + 1 := ⟨steps - 1, by omega⟩
  rw [List.map_cons, length_row] at hsteps
  have hlength := m.length_text_le
  have hvalue := (h m (by simp)).reads steps _ (by omega)
    (atEnd_rowTail '\x7d' rfl (ms.map Member.written) rest)
  rw [List.map_cons, row_append]
  induction ms generalizing m steps with
  | nil => exact readMembers_last (m.readKey_written _) hvalue
  | cons next ms ih =>
    rw [List.map_cons, length_rowTail, length_row] at hsteps
    obtain ⟨steps, rfl⟩ : ∃ n, steps = n + 1 := ⟨steps - 1, by omega⟩
    have hlength' := next.length_text_le
    have hnext := (h next (by simp)).reads steps _ (by omega)
      (atEnd_rowTail '\x7d' rfl (ms.map Member.written) rest)
    have hmembers := ih (fun n hn => h n (by simp [hn])) steps (by omega) hlength' hnext
    rw [List.map_cons, rowTail_cons, List.cons_append, List.append_assoc] at hvalue ⊢
    rw [readMembers_next (m.readKey_written _) hvalue, hmembers]
    rfl

theorem readValue_object {cs : List Char} (h : Begins cs) (steps : Nat) :
    readValue (steps + 1) ('\x7b' :: cs) =
      (readMembers steps cs).map fun r => (.object r.1, r.2) := by
  rw [readValue, skipSpace_cons rfl]
  simp only [h.skipSpace_eq]
  split
  · exact absurd rfl (h.ne_cons '\x7d' rfl _)
  · cases readMembers steps cs <;> rfl

/-- An object is read as its members. -/
theorem denotes_writeObject (ms : List Member) (h : ∀ m ∈ ms, Denotes m.text m.value) :
    Denotes (writeObject (ms.map fun m => (m.key, m.text)))
      (.fields (ms.map fun m => (m.key, m.value))) := by
  have htexts : memberTexts (ms.map fun m => (m.key, m.text)) = ms.map Member.written := by
    rw [memberTexts, List.map_map]
    rfl
  have hfields : Document.fields (ms.map fun m => (m.key, m.value)) =
      .object (ms.map fun m => (pieces m.key, m.value)) := by
    rw [Document.fields, List.map_map]
    rfl
  rw [hfields]
  constructor
  · exact ⟨'\x7b', _, toList_writeObject _, rfl, rfl⟩
  · intro steps rest hsteps _
    rw [toList_writeObject, htexts] at hsteps ⊢
    simp only [List.length_cons, List.length_append] at hsteps
    obtain ⟨steps, rfl⟩ : ∃ n, steps = n + 1 := ⟨steps - 1, by omega⟩
    rw [List.cons_append, List.append_assoc]
    cases ms with
    | nil => rfl
    | cons m ms =>
      -- Behind the brace there is a key, so the object is not taken for an empty one.
      have hbegins : Begins (row ((m :: ms).map Member.written) ++ '\x7d' :: rest) := by
        rw [List.map_cons, row_append]
        exact m.begins_written.append _
      have hmembers := readMembers_row h steps rest (by omega)
      show readValue (steps + 1)
        ('\x7b' :: (row ((m :: ms).map Member.written) ++ '\x7d' :: rest)) = _
      rw [readValue_object hbegins, hmembers]
      rfl

/-! ### Whole texts -/

/-- A text that denotes a document is read as that document. -/
theorem Denotes.ofText? {text : String} {d : Document} (h : Denotes text d) :
    Document.ofText? text = some d := by
  have hread := h.reads (2 * text.toList.length + 2) [] (by omega) atEnd_nil
  rw [List.append_nil] at hread
  show (readValue (2 * text.toList.length + 2) text.toList).bind _ = _
  rw [hread]
  rfl

/-! ### What is found in a document -/

namespace Document

@[simp] theorem text?_quoted (s : String) : (quoted s).text? = some s :=
  textOf?_pieces s

@[simp] theorem textOrNull?_quoted (s : String) : (quoted s).textOrNull? = some (some s) := by
  rw [textOrNull?, text?_quoted]
  · rfl
  · intro h
    cases h

@[simp] theorem natural?_natural (n : Nat) : (natural n).natural? = some n :=
  congrArg some (Decimal.ofDigits_digits n)

@[simp] theorem word32?_natural (w : UInt32) : (natural w.toNat).word32? = some w := by
  rw [word32?, natural?_natural]
  show (if w.toNat < UInt32.size then some w.toNat.toUInt32 else none) = some w
  rw [if_pos w.toNat_lt_size, Nat.toUInt32_eq, UInt32.ofNat_toNat]

/-- The keys of a written object are found as they were written. -/
@[simp] theorem members?_fields (members : List (String × Document)) :
    (fields members).members? = some members := by
  show (members.map fun m => (pieces m.1, m.2)).mapM
    (fun m => (textOf? m.1).map fun key => (key, m.2)) = some members
  induction members with
  | nil => rfl
  | cons m ms ih =>
    rw [List.map_cons, List.mapM_cons, ih]
    simp [textOf?_pieces]

end Document

end Json

end AtomicCss
