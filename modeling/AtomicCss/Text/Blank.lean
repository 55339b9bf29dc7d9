import AtomicCss.Text.Ranges

/-!
# White space

The characters with the Unicode property `White_Space`, and the two operations of the project that
look at them: cutting blanks off both ends of a text and taking its words.

* `trim` drops the blanks at both ends.
* `words` lists the maximal runs of characters that are not blank.
* `squeeze` writes the words again with one space between them.
-/

namespace AtomicCss.Text

/-- The characters with the Unicode property `White_Space`. -/
def blankRanges : List CodeRange :=
  [⟨0x9, 0xd⟩, ⟨0x20, 0x20⟩, ⟨0x85, 0x85⟩, ⟨0xa0, 0xa0⟩, ⟨0x1680, 0x1680⟩, ⟨0x2000, 0x200a⟩,
  ⟨0x2028, 0x2029⟩, ⟨0x202f, 0x202f⟩, ⟨0x205f, 0x205f⟩, ⟨0x3000, 0x3000⟩]

/-- Whether the character is white space. -/
def isBlank (c : Char) : Bool :=
  inRanges blankRanges c

/-- Drops the characters at both ends that satisfy `p`. -/
def trimBoth (p : Char → Bool) (cs : List Char) : List Char :=
  ((cs.dropWhile p).reverse.dropWhile p).reverse

/-- Drops the blanks at both ends of a text. -/
def trim (s : String) : String :=
  String.ofList (trimBoth isBlank s.toList)

/-- Whether a text holds nothing but blanks. -/
def isBlankText (s : String) : Bool :=
  s.toList.all isBlank

/-- Cuts a list at every element that satisfies `p`; the cutting elements are dropped. The result
has one piece more than there are cuts. -/
def cutAt {α : Type} (p : α → Bool) : List α → List (List α)
  | [] => [[]]
  | a :: as =>
    if p a then [] :: cutAt p as
    else
      match cutAt p as with
      | [] => [[a]]
      | piece :: pieces => (a :: piece) :: pieces

/-- The words of a text: its maximal runs of characters that are not blank. -/
def words (s : String) : List String :=
  ((cutAt isBlank s.toList).filter (! ·.isEmpty)).map String.ofList

/-- The words of a text with one space between them. -/
def squeeze (s : String) : String :=
  String.intercalate " " (words s)

/-- Cutting never loses the last piece, so there is always one. -/
theorem cutAt_ne_nil {α : Type} (p : α → Bool) (as : List α) : cutAt p as ≠ [] := by
  cases as with
  | nil => simp [cutAt]
  | cons a as =>
    unfold cutAt
    split
    · simp
    · split <;> simp

end AtomicCss.Text
