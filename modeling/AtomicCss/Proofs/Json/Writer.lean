import AtomicCss.Json.Reader
import AtomicCss.Json.Writer
import AtomicCss.Proofs.Text

/-!
# Written JSON texts

A string that is written in quotes is read back as the same text, and what follows the closing quote
is left. So a written string determines both its text and where it ends. A written array or object
is its first item, the other items each after a comma, and the closing mark.

* `Json.readString_escape`: reading goes over one written character at a time.
* `Json.readString_quoted`, `Json.decode_writtenAs`: the pieces of a written text are read, and they
  mean that text.
* `Json.quote_append_inj`: two written strings with anything after them.
* `Json.toList_writeArray`, `Json.toList_writeObject`: the characters of lists.
* `Json.rowTail_eq_of_row_eq`: a list is empty exactly when its closing mark comes first.
-/

namespace AtomicCss.Json

/-! ### Strings -/

/-- The control characters that have a short escape. -/
def shortControls : List Char :=
  ['\x08', '\t', '\n', '\x0c', '\r']

/-- The piece as which a written character is read: control characters without a short escape are
written as units. -/
def writtenAs (c : Char) : Piece :=
  if c.toNat < 0x20 ∧ c ∉ shortControls then .unit c.toNat else .char c

/-- The digits that are written for a control character stand for its code. -/
theorem hexUnit?_hexDigit :
    ∀ n < 32, hexUnit? '0' '0' (hexDigit (n / 16)) (hexDigit (n % 16)) = some n := by
  decide

/-- A character that is not escaped is read as it stands. -/
theorem readString_plain {c : Char} {cs : List Char} (hquote : c ≠ '"') (hslash : c ≠ '\\')
    (hcontrol : ¬ c.toNat < 0x20) :
    readString (c :: cs) = (readString cs).map fun r => (.char c :: r.1, r.2) := by
  rw [readString.eq_def]
  split
  · next h => cases h
  · next h => exact absurd (List.cons.inj h).1 hquote
  · next h => exact absurd (List.cons.inj h).1 hslash
  · next h => exact absurd (List.cons.inj h).1 hslash
  · next h =>
    obtain ⟨rfl, rfl⟩ := List.cons.inj h
    rw [if_neg (by simp [hcontrol, hslash])]
    cases readString cs <;> rfl

/-- A short escape is read as the character it stands for. -/
theorem readString_short {e c : Char} {cs : List Char} (h : shortEscape? e = some c) :
    readString ('\\' :: e :: cs) = (readString cs).map fun r => (.char c :: r.1, r.2) := by
  have hunit : e ≠ 'u' := by
    rintro rfl
    cases h
  rw [readString.eq_def]
  split
  · next h' => cases h'
  · next h' => exact absurd (List.cons.inj h').1 (by decide)
  · next h' => exact absurd (List.cons.inj (List.cons.inj h').2).1 hunit
  · next h' =>
    obtain ⟨rfl, rfl⟩ := List.cons.inj (List.cons.inj h').2
    rw [h]
    cases readString cs <;> rfl
  · next hno h' =>
    obtain ⟨hslash, hrest⟩ := List.cons.inj h'
    exact (hno _ _ hslash.symm hrest.symm).elim

/-- The digits of a unit are read as that unit. -/
theorem readString_unit {a b c d : Char} {n : Nat} {cs : List Char}
    (h : hexUnit? a b c d = some n) :
    readString ('\\' :: 'u' :: a :: b :: c :: d :: cs) =
      (readString cs).map fun r => (.unit n :: r.1, r.2) := by
  rw [readString, h]
  cases readString cs <;> rfl

/-- What is written for a character: a short escape, the digits of its code, or itself. -/
theorem escape_cases (c : Char) :
    (∃ e, escape c = ['\\', e] ∧ shortEscape? e = some c ∧ writtenAs c = .char c) ∨
    (escape c = ['\\', 'u', '0', '0', hexDigit (c.toNat / 16), hexDigit (c.toNat % 16)] ∧
      c.toNat < 32 ∧ writtenAs c = .unit c.toNat) ∨
    (escape c = [c] ∧ (c ≠ '"' ∧ c ≠ '\\' ∧ ¬ c.toNat < 0x20) ∧ writtenAs c = .char c) := by
  by_cases hshort : c ∈ '"' :: '\\' :: shortControls
  · left
    simp only [shortControls, List.mem_cons, List.not_mem_nil, or_false] at hshort
    rcases hshort with rfl | rfl | rfl | rfl | rfl | rfl | rfl
    all_goals exact ⟨_, rfl, rfl, rfl⟩
  · right
    simp only [shortControls, List.mem_cons, List.not_mem_nil, or_false, not_or] at hshort
    obtain ⟨h₁, h₂, h₃, h₄, h₅, h₆, h₇⟩ := hshort
    by_cases hcontrol : c.toNat < 0x20
    · left
      refine ⟨?_, hcontrol, ?_⟩
      · simp [escape, h₁, h₂, h₃, h₄, h₅, h₆, h₇, hcontrol]
      · simp [writtenAs, shortControls, h₃, h₄, h₅, h₆, h₇, hcontrol]
    · right
      refine ⟨?_, ⟨h₁, h₂, hcontrol⟩, ?_⟩
      · simp [escape, h₁, h₂, h₃, h₄, h₅, h₆, h₇, hcontrol]
      · simp [writtenAs, hcontrol]

/-- Reading goes over one written character at a time. -/
theorem readString_escape (c : Char) (cs : List Char) :
    readString (escape c ++ cs) = (readString cs).map fun r => (writtenAs c :: r.1, r.2) := by
  rcases escape_cases c with ⟨e, he, hshort, hw⟩ | ⟨he, hlt, hw⟩ | ⟨he, ⟨hq, hs, hc⟩, hw⟩
  · rw [he, hw]
    exact readString_short hshort
  · rw [he, hw]
    exact readString_unit (hexUnit?_hexDigit c.toNat hlt)
  · rw [he, hw]
    exact readString_plain hq hs hc

/-- A written text is read up to its closing quote. -/
theorem readString_quoted :
    ∀ (s rest : List Char),
      readString (s.flatMap escape ++ '"' :: rest) = some (s.map writtenAs, rest)
  | [], rest => by simp [readString]
  | c :: s, rest => by
    rw [List.flatMap_cons, List.append_assoc, readString_escape, readString_quoted s rest]
    rfl

/-- A unit that is no surrogate is a character of its own, whatever follows it. -/
theorem decode_unit {u : Nat} (h : u < 0xd800) (rest : List Piece) :
    decode (.unit u :: rest) = (decode rest).map (Char.ofNat u :: ·) := by
  have hlead : isLeading u = false := by
    simp only [isLeading, Bool.and_eq_false_iff, decide_eq_false_iff_not]
    omega
  have htrail : isTrailing u = false := by
    simp only [isTrailing, Bool.and_eq_false_iff, decide_eq_false_iff_not]
    omega
  cases rest with
  | nil => simp [decode, hlead, htrail]
  | cons piece rest =>
    cases piece with
    | char c => simp [decode, hlead, htrail]
    | unit v => simp [decode, hlead, htrail]

/-- The pieces of a written text mean that text. -/
theorem decode_writtenAs : ∀ s : List Char, decode (s.map writtenAs) = some s
  | [] => rfl
  | c :: s => by
    rw [List.map_cons]
    by_cases h : c.toNat < 0x20 ∧ c ∉ shortControls
    · have hlt : c.toNat < 0xd800 := by omega
      rw [writtenAs, if_pos h, decode_unit hlt, decode_writtenAs s, Char.ofNat_toNat]
      rfl
    · rw [writtenAs, if_neg h, decode, decode_writtenAs s]
      rfl

/-- The characters of a written string. -/
theorem toList_quote (s : String) :
    (quote s).toList = '"' :: (s.toList.flatMap escape ++ ['"']) := by
  rw [quote, String.toList_ofList]
  rfl

/-- A written string determines its text and where it ends. -/
theorem quote_append_inj {s t : String} {u v : List Char}
    (h : (quote s).toList ++ u = (quote t).toList ++ v) : s = t ∧ u = v := by
  -- Without its opening quote, the text is read back.
  have hread : ∀ (r : String) (rest : List Char),
      readString (((quote r).toList ++ rest).drop 1) = some (r.toList.map writtenAs, rest) := by
    intro r rest
    rw [toList_quote]
    simpa using readString_quoted r.toList rest
  have hsame := hread s u
  rw [h, hread t v] at hsame
  obtain ⟨hpieces, huv⟩ := Prod.mk.inj (Option.some.inj hsame)
  have hchars : some s.toList = some t.toList :=
    calc some s.toList = decode (s.toList.map writtenAs) := (decode_writtenAs s.toList).symm
      _ = decode (t.toList.map writtenAs) := congrArg decode hpieces.symm
      _ = some t.toList := decode_writtenAs t.toList
  exact ⟨String.toList_inj.1 (Option.some.inj hchars), huv.symm⟩

/-! ### Lists -/

/-- A mark that ends a list, or stands between two items of one. -/
def isEndMark (c : Char) : Bool :=
  c == ',' || c == ']' || c == '\x7d'

/-- The text is not empty and does not begin with a mark that ends a list. -/
def Opens (text : String) : Prop :=
  ∃ c cs, text.toList = c :: cs ∧ isEndMark c = false

/-- The texts that follow the first one in a list, each after a comma. -/
def rowTail (texts : List String) : List Char :=
  texts.flatMap fun text => ',' :: text.toList

@[simp] theorem rowTail_nil : rowTail [] = [] := rfl

@[simp] theorem rowTail_cons (text : String) (texts : List String) :
    rowTail (text :: texts) = ',' :: (text.toList ++ rowTail texts) := rfl

/-- The texts of a list with commas between them. -/
def row : List String → List Char
  | [] => []
  | text :: texts => text.toList ++ rowTail texts

theorem toList_intercalate_comma (texts : List String) :
    (String.intercalate "," texts).toList = row texts := by
  cases texts with
  | nil => rw [String.intercalate_nil]; rfl
  | cons text texts => exact Text.toList_intercalate_cons "," text texts

theorem toList_writeArray (texts : List String) :
    (writeArray texts).toList = '[' :: (row texts ++ [']']) := by
  rw [writeArray, String.toList_append, String.toList_append, toList_intercalate_comma]
  rfl

/-- The texts of the members of an object. -/
def memberTexts (members : List (String × String)) : List String :=
  members.map fun m => writeMember m.1 m.2

theorem toList_writeObject (members : List (String × String)) :
    (writeObject members).toList = '\x7b' :: (row (memberTexts members) ++ ['\x7d']) := by
  rw [writeObject, String.toList_append, String.toList_append, toList_intercalate_comma]
  rfl

theorem toList_writeMember (key value : String) :
    (writeMember key value).toList = (quote key).toList ++ ':' :: value.toList := by
  rw [writeMember, String.toList_append, String.toList_append, List.append_assoc]
  rfl

/-- A written member begins with a quote, so that it does not look like the end of a list. -/
theorem opens_memberTexts {members : List (String × String)} {text : String}
    (h : text ∈ memberTexts members) : Opens text := by
  obtain ⟨m, -, rfl⟩ := List.mem_map.1 h
  refine ⟨'"', (m.1.toList.flatMap escape ++ ['"']) ++ ':' :: m.2.toList, ?_, rfl⟩
  rw [toList_writeMember, toList_quote]
  rfl

/-- Two lists up to their closing marks are both empty, or both go on with an item. -/
theorem rowTail_eq_of_row_eq {ss ts : List String} {mark : Char} {u v : List Char}
    (hmark : isEndMark mark = true) (hs : ∀ s ∈ ss, Opens s) (ht : ∀ t ∈ ts, Opens t)
    (h : row ss ++ mark :: u = row ts ++ mark :: v) :
    rowTail ss ++ mark :: u = rowTail ts ++ mark :: v := by
  have hopen : ∀ {s : String} {cs ds : List Char}, Opens s → s.toList ++ cs ≠ mark :: ds := by
    rintro s cs ds ⟨c, rest, hc, hend⟩ heq
    rw [hc, List.cons_append] at heq
    rw [(List.cons.inj heq).1, hmark] at hend
    cases hend
  cases ss with
  | nil =>
    cases ts with
    | nil => exact h
    | cons t ts =>
      rw [row, row, List.append_assoc] at h
      exact absurd h.symm (hopen (ht t (by simp)))
  | cons s ss =>
    cases ts with
    | nil =>
      rw [row, row, List.append_assoc] at h
      exact absurd h (hopen (hs s (by simp)))
    | cons t ts => exact congrArg (',' :: ·) h

end AtomicCss.Json
