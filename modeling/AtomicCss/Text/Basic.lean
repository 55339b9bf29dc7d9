/-!
# Texts

Small operations on texts that treat a text as the list of its characters, so that facts about
lists apply to them.

* `startsWith` and `contains` look for one text in another.
* `asciiLower` and `sameIgnoringCase` know the letters of ASCII and no others.
-/

namespace AtomicCss.Text

/-- Whether the text `s` starts with the text `start`. -/
def startsWith (s start : String) : Bool :=
  start.toList.isPrefixOf s.toList

/-- Whether the list `needle` occurs as a block of consecutive elements. -/
def occursIn (needle : List Char) : List Char → Bool
  | [] => needle.isEmpty
  | c :: cs => needle.isPrefixOf (c :: cs) || occursIn needle cs

/-- Whether the text `s` has `part` in it. -/
def contains (s part : String) : Bool :=
  occursIn part.toList s.toList

/-- The text with the capital letters of ASCII made small; every other character stays. -/
def asciiLower (s : String) : String :=
  String.ofList (s.toList.map Char.toLower)

/-- Whether two texts differ at most in the case of ASCII letters. -/
def sameIgnoringCase (s t : String) : Bool :=
  asciiLower s == asciiLower t

/-- The text with every occurrence of the character `c` replaced by another text. -/
def replaceChar (c : Char) (replacement s : String) : String :=
  String.ofList (s.toList.flatMap fun d => if d = c then replacement.toList else [d])

theorem startsWith_iff {s start : String} :
    startsWith s start = true ↔ start.toList <+: s.toList :=
  List.isPrefixOf_iff_prefix

@[simp] theorem toList_asciiLower (s : String) :
    (asciiLower s).toList = s.toList.map Char.toLower :=
  String.toList_ofList

end AtomicCss.Text
