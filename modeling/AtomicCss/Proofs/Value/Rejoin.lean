import AtomicCss.Proofs.Value.Dashed
import AtomicCss.Proofs.Value.Dimension
import AtomicCss.Proofs.Value.Run

/-!
# Canonical numbers and what follows them

Nodes in canonical form are written as a text, and the text is read again. Most nodes are read as
they were, but a number that has become shorter may run on into the word or the parenthesis behind
it: `0px%` becomes `0%`, `+5(a)` the call `5(a)`, and a number of seconds beyond the range of
doubles is a word. Here is what such a pair of nodes is read as. It is canonical unless a number
with a plus sign comes to light: `0px%+5` becomes `0%+5`, and the plus sign goes when that is read
again.

* `Node.rewriteNode`: a node with its numbers written in another way; with `normalDimension` it is
  the canonical form of the node.
* `Node.seenAlike_rewriteNode`: what is seen of nodes that are written in another way.
* `Node.ReadAs`: a text is read as nodes in canonical form, or else as nodes with a plus sign.
* `Node.hidesNumber`: the pairs in which there is a hidden number with a plus sign.
* `Node.exists_readAs_number`, `Node.exists_readAs_number_word`, `Node.exists_readAs_number_call`: a
  number, alone and with what it may run on into.
-/

namespace AtomicCss.Dimension

/-! ### Shown numbers -/

theorem IsShown.wordChars {d : Dimension} (h : d.IsShown) :
    ∀ c ∈ d.chars, isWordChar c = true := by
  rcases h with ⟨hwritten, -⟩ | ⟨hoverflows, hunit⟩
  · exact hwritten.wordChars
  · intro c hc
    rcases List.mem_append.1 hc with hc | hc
    · have hall : ("inf".toList ++ "-inf".toList).all isWordChar = true := by decide
      refine List.all_eq_true.1 hall c (List.mem_append.2 ?_)
      rcases overflows_cases hoverflows with hnumber | hnumber
      · exact .inl (hnumber ▸ hc)
      · exact .inr (hnumber ▸ hc)
    · have halpha := List.all_eq_true.1 hunit c hc
      exact isWordChar_of_isNameChar (isNameChar_of_isAlphanum (by simp [Char.isAlphanum, halpha]))

/-- Without a plus sign, a number right behind another one runs into it. -/
theorem IsShown.exists_head {d : Dimension} (h : d.IsShown) :
    ∃ c cs, d.chars = c :: cs ∧ continuesWord [c] = true := by
  rcases h with ⟨hwritten, hplus⟩ | ⟨hoverflows, -⟩
  · obtain ⟨c, cs, hchars⟩ := List.exists_cons_of_ne_nil hwritten.number.ne_nil
    have hmem : c ∈ d.number.toList := by simp [hchars]
    refine ⟨c, cs ++ d.unit.toList, by rw [chars, hchars, List.cons_append], ?_⟩
    rcases hwritten.number.mem hmem with hdigit | rfl | rfl | rfl
    · have hname : isNameChar c = true :=
        isNameChar_of_isAlphanum (by simp [Char.isAlphanum, hdigit])
      simp [continuesWord, hname]
    · decide
    · exact absurd hmem hplus
    · decide
  · rcases overflows_cases hoverflows with hnumber | hnumber
    · refine ⟨'i', "nf".toList ++ d.unit.toList, ?_, by decide⟩
      rw [chars, hnumber]
      rfl
    · refine ⟨'-', "inf".toList ++ d.unit.toList, ?_, by decide⟩
      rw [chars, hnumber]
      rfl

theorem IsShown.chars_ne_nil {d : Dimension} (h : d.IsShown) : d.chars ≠ [] := by
  obtain ⟨c, cs, hchars, -⟩ := h.exists_head
  simp [hchars]

theorem IsShown.plus_notMem {d : Dimension} (h : d.IsShown) : '+' ∉ d.chars := by
  have hunit : ∀ {cs : List Char}, (∀ c ∈ cs, c.isAlpha = true) → '+' ∉ cs :=
    fun halpha hmem => absurd (halpha _ hmem) (by decide)
  rw [chars, List.mem_append, not_or]
  rcases h with ⟨hwritten, hplus⟩ | ⟨hoverflows, hletters⟩
  · refine ⟨hplus, ?_⟩
    rcases hwritten.unit with hpercent | halpha
    · rw [hpercent]
      decide
    · exact hunit halpha
  · refine ⟨?_, hunit (List.all_eq_true.1 hletters)⟩
    rcases overflows_cases hoverflows with hnumber | hnumber
    · rw [hnumber]
      decide
    · rw [hnumber]
      decide

/-- No number is part of the name `url`. -/
theorem IsShown.exists_notMem_url {d : Dimension} (h : d.IsShown) :
    ∃ c ∈ d.chars, c.toLower ∉ "url".toList := by
  rcases h with ⟨hwritten, -⟩ | ⟨hoverflows, -⟩
  · obtain ⟨c, hc, hdigit⟩ := hwritten.number.exists_digit
    refine ⟨c, List.mem_append_left _ hc, ?_⟩
    rw [Text.toLower_of_not_isUpper (isUpper_of_isDigit hdigit)]
    have hnone : "url".toList.all (!·.isDigit) = true := by decide
    intro hmem
    have hnot := List.all_eq_true.1 hnone c hmem
    rw [hdigit] at hnot
    cases hnot
  · have hn : 'n' ∈ d.number.toList := by
      rcases overflows_cases hoverflows with hnumber | hnumber
      · rw [hnumber]; decide
      · rw [hnumber]; decide
    exact ⟨'n', List.mem_append_left _ hn, by decide⟩

end AtomicCss.Dimension

namespace AtomicCss.Node

open Property (dashed dashAfter)

/-! ### Canonical forms of nodes -/

theorem mapNumbers_eq_map (f : Bool → Dimension → Dimension) (inMath : Bool) (ns : List Node) :
    mapNumbers f inMath ns = ns.map (mapNumbersNode f inMath) := by
  induction ns with
  | nil => rfl
  | cons n ns ih => rw [mapNumbers, ih, List.map_cons]

theorem doubleQuoted_eq_map (ns : List Node) : doubleQuoted ns = ns.map doubleQuotedNode := by
  induction ns with
  | nil => rfl
  | cons n ns ih => rw [doubleQuoted, ih, List.map_cons]

/-- A word in canonical form. -/
def wordText (dash : Bool) (text : String) : String :=
  if dash then dashed text else text

/-- Writes a node in another way: its numbers as `f` says, its strings in double quotes where they
can be, and its words dashed if `dash` says so. -/
def rewriteNode (f : Bool → Dimension → Dimension) (dash inMath : Bool) (n : Node) : Node :=
  if dash then dashWord (doubleQuotedNode (mapNumbersNode f inMath n))
  else doubleQuotedNode (mapNumbersNode f inMath n)

section RewriteNode

variable (f : Bool → Dimension → Dimension) (dash inMath : Bool)

@[simp] theorem rewriteNode_word (text : String) :
    rewriteNode f dash inMath (.word text) = .word (wordText dash text) := by
  cases dash <;> rfl

@[simp] theorem rewriteNode_number (d : Dimension) :
    rewriteNode f dash inMath (.number d) = .number (f inMath d) := by
  cases dash <;> rfl

theorem rewriteNode_string (quote : Char) (content : String) :
    rewriteNode f dash inMath (.string quote content) =
      doubleQuotedNode (.string quote content) := by
  cases dash with
  | false => rfl
  | true =>
    show dashWord (doubleQuotedNode (.string quote content)) = _
    rw [doubleQuotedNode]
    split <;> rfl

@[simp] theorem rewriteNode_call (name : String) (args : List Node) (closed : Bool) :
    rewriteNode f dash inMath (.call name args closed) =
      .call name (args.map (rewriteNode f false (mathIn inMath name))) closed := by
  have hargs : ∀ inMath, doubleQuoted (mapNumbers f inMath args) =
      args.map (rewriteNode f false inMath) := by
    intro inMath
    rw [mapNumbers_eq_map, doubleQuoted_eq_map, List.map_map]
    rfl
  rw [← hargs]
  cases dash <;> rfl

@[simp] theorem rewriteNode_space : rewriteNode f dash inMath .space = .space := by
  cases dash <;> rfl

@[simp] theorem rewriteNode_divider (mark : Char) :
    rewriteNode f dash inMath (.divider mark) = .divider mark := by
  cases dash <;> rfl

end RewriteNode

/-- Numbers may be rewritten once more. -/
theorem mapNumbers_rewriteNode (g f : Bool → Dimension → Dimension) (dash inMath : Bool)
    (ns : List Node) :
    mapNumbers g inMath (ns.map (rewriteNode f dash inMath)) =
      ns.map (rewriteNode (fun inMath d => g inMath (f inMath d)) dash inMath) := by
  induction ns using listInduction generalizing dash inMath with
  | nil => rfl
  | cons n ns hargs ih =>
    rw [List.map_cons, List.map_cons, mapNumbers, ih]
    congr 1
    cases n with
    | call name args closed =>
      rw [rewriteNode_call, rewriteNode_call, mapNumbersNode,
        ← hargs name args closed rfl false (mathIn inMath name)]
      rfl
    | string quote content =>
      rw [rewriteNode_string, rewriteNode_string, doubleQuotedNode]
      split <;> rfl
    | _ => simp [mapNumbersNode]

/-- A text is fixed by dashing if it has no capitals. -/
theorem wordText_eq_self {dash : Bool} {text : String}
    (h : dash = true → ∀ c ∈ text.toList, c.isUpper = false) : wordText dash text = text := by
  cases dash with
  | false => rfl
  | true => exact Property.dashed_eq_self (.inr (h rfl))

theorem wordText_wordText (dash : Bool) (text : String) :
    wordText dash (wordText dash text) = wordText dash text := by
  cases dash with
  | false => rfl
  | true => exact Property.dashed_dashed text

theorem isWord_wordText (dash : Bool) {text : String} (h : IsWord text.toList) :
    IsWord (wordText dash text).toList := by
  cases dash with
  | false => exact h
  | true => exact h.dashed

/-- A character that is no name character is no capital. -/
theorem isUpper_of_not_isNameChar {c : Char} (h : isNameChar c = false) : c.isUpper = false := by
  cases hupper : c.isUpper with
  | false => rfl
  | true =>
    have halphanum : c.isAlphanum = true := by simp [Char.isAlphanum, Char.isAlpha, hupper]
    rw [isNameChar_of_isAlphanum halphanum] at h
    cases h

/-- Dashing keeps the characters that are not name characters. -/
theorem exists_not_isNameChar_wordText (dash : Bool) {text : String}
    (h : ∃ c ∈ text.toList, isNameChar c = false) :
    ∃ c ∈ (wordText dash text).toList, isNameChar c = false := by
  obtain ⟨c, hc, hname⟩ := h
  refine ⟨c, ?_, hname⟩
  cases dash with
  | false => exact hc
  | true => exact Property.mem_dashed (isUpper_of_not_isNameChar hname) hc

/-- A word that begins with something other than a name keeps its first character. -/
theorem wordText_cons (dash : Bool) {text : String} {c : Char} {cs : List Char}
    (htext : text.toList = c :: cs) (hc : isNameChar c = false) :
    ∃ cs', (wordText dash text).toList = c :: cs' ∧
      (dash = true → ∀ d ∈ c :: cs', d.isUpper = false) := by
  cases dash with
  | false => exact ⟨cs, htext, fun h => (Bool.false_ne_true h).elim⟩
  | true =>
    have hupper := isUpper_of_not_isNameChar hc
    have hcustom : Property.isCustom text = false := by
      rw [Property.isCustom, Text.startsWith, htext]
      have hdash : c ≠ '-' := by
        rintro rfl
        exact absurd hc (by decide)
      simp [List.isPrefixOf, hdash.symm]
    have hchars : (dashed text).toList = c :: dashAfter (some c) cs := by
      rw [dashed, if_neg (by simp [hcustom]), String.toList_ofList, htext,
        Property.dashAfter_cons_of_not_isUpper none hupper]
    refine ⟨dashAfter (some c) cs, hchars, fun _ d hd => ?_⟩
    rw [← Property.dashAfter_cons_of_not_isUpper none hupper] at hd
    exact Property.isUpper_of_mem_dashAfter hd

/-! ### Nodes that are read instead -/

/-- The node is closed and in canonical form. -/
structure IsTidy (dash inMath : Bool) (n : Node) : Prop where
  tidy : rewriteNode normalDimension dash inMath n = n
  closed : n.unclosed = false

/-- Whether the number has a plus sign. -/
def hasPlus (_inMath : Bool) (d : Dimension) : Bool :=
  d.number.toList.head? == some '+'

/-- The text `cs` before `next` is read as the items `ns`. They are in canonical form, or if
something was hidden in the text there is a number with a plus sign among them. -/
structure ReadAs (hidden dash inMath : Bool) (next : Option Char) (cs : List Char)
    (ns : List Node) : Prop where
  ne_nil : ns ≠ []
  chars : charsAll ns = cs
  fits : AllFit next ns
  items : ItemsOnly ns
  tidy : hidden = false → ∀ n ∈ ns, IsTidy dash inMath n
  plus : hidden = true → anyNumber hasPlus inMath ns = true

variable {hidden dash inMath : Bool} {next : Option Char}

theorem isTidy_word {text : String} (h : wordText dash text = text) :
    IsTidy dash inMath (.word text) :=
  ⟨by rw [rewriteNode_word, h], rfl⟩

theorem isTidy_number {d : Dimension} (h : normalDimension inMath d = d) :
    IsTidy dash inMath (.number d) :=
  ⟨by rw [rewriteNode_number, h], rfl⟩

/-- A tidy node that fits is read as itself. -/
theorem readAs_singleton {n : Node} (hfits : n.Fits next) (htidy : IsTidy dash inMath n)
    (hitem : n.isItem = true) (hspaced : SpacedNode n) :
    ReadAs false dash inMath next n.chars [n] where
  ne_nil := by simp
  chars := by simp
  fits := ⟨hfits, trivial⟩
  items := List.forall_mem_singleton.2 ⟨hitem, hspaced⟩
  tidy _ := List.forall_mem_singleton.2 htidy
  plus h := (Bool.false_ne_true h).elim

/-- A normal number in front of text that is read is read as itself. -/
theorem ReadAs.cons_number {d : Dimension} {cs : List Char} {ns : List Node}
    (h : ReadAs hidden dash inMath next cs ns) (hfits : Fits ((lookahead cs).or next) (.number d))
    (hnormal : normalDimension inMath d = d) :
    ReadAs hidden dash inMath next (d.chars ++ cs) (.number d :: ns) where
  ne_nil := by simp
  chars := by rw [charsAll_cons, h.chars]; rfl
  fits := ⟨h.chars.symm ▸ hfits, h.fits⟩
  items := List.forall_mem_cons.2 ⟨⟨rfl, trivial⟩, h.items⟩
  tidy hshown := List.forall_mem_cons.2 ⟨isTidy_number hnormal, h.tidy hshown⟩
  plus hhidden := by rw [anyNumber, h.plus hhidden, Bool.or_true]

/-- A word is read as its canonical form. -/
theorem readAs_word {text : String} (h : Fits next (.word text)) :
    ReadAs false dash inMath next (rewriteNode normalDimension dash inMath (.word text)).chars
      [.word (wordText dash text)] := by
  obtain ⟨hword, hnext, hopen⟩ := h
  rw [rewriteNode_word]
  refine readAs_singleton ⟨isWord_wordText dash hword, hnext, fun h => ?_⟩
    (isTidy_word (wordText_wordText dash text)) rfl trivial
  exact exists_not_isNameChar_wordText dash (hopen h)

/-- A string without double quotes may be put in double quotes. -/
theorem isContent_double {cs : List Char} (h : IsContent '\'' cs) (hdouble : '"' ∉ cs) :
    IsContent '"' cs := by
  induction h with
  | nil => exact .nil
  | escape _ ih => exact .escape (ih (by simp_all))
  | plain _ hescape _ ih =>
    exact .plain (by rintro rfl; simp at hdouble) hescape (ih (by simp_all))

/-- A string gets the quotes it can have, and keeps them from then on. -/
theorem doubleQuotedNode_string {quote : Char} {content : String} (hquote : isQuote quote = true)
    (hcontent : IsContent quote content.toList) :
    ∃ quote', isQuote quote' = true ∧ IsContent quote' content.toList ∧
      doubleQuotedNode (.string quote content) = .string quote' content ∧
      doubleQuotedNode (.string quote' content) = .string quote' content := by
  by_cases h : (quote = '\'' && !content.toList.contains '"') = true
  · have hsingle : quote = '\'' := by simp_all
    have hdouble : '"' ∉ content.toList := by simp_all
    subst hsingle
    exact ⟨'"', rfl, isContent_double hcontent hdouble, if_pos h, by simp [doubleQuotedNode]⟩
  · exact ⟨quote, hquote, hcontent, if_neg h, if_neg h⟩

/-- A string is read as its canonical form. -/
theorem exists_readAs_string {quote : Char} {content : String} {next' : Option Char}
    (h : Fits next' (.string quote content)) :
    ∃ ns, ReadAs false dash inMath next
      (rewriteNode normalDimension dash inMath (.string quote content)).chars ns := by
  obtain ⟨quote', hquote, hcontent, hnode, hagain⟩ := doubleQuotedNode_string h.1 h.2
  rw [rewriteNode_string, hnode]
  exact ⟨_, readAs_singleton ⟨hquote, hcontent⟩ ⟨by rw [rewriteNode_string, hagain], rfl⟩ rfl
    trivial⟩

/-! ### Calls -/

/-- The nodes have no needless gaps; `joins` says whether there is an item before. They are in
canonical form, or if something was hidden there is a number with a plus sign among them. -/
structure Settled (hidden dash inMath joins : Bool) (next : Option Char) (ns : List Node) :
    Prop where
  fits : AllFit next ns
  spaced : Spaced joins ns
  tidy : hidden = false → ∀ n ∈ ns, IsTidy dash inMath n
  plus : hidden = true → anyNumber hasPlus inMath ns = true

/-- Nodes in canonical form one by one. -/
theorem map_eq_self_of_isTidy {ns : List Node} (h : ∀ n ∈ ns, IsTidy dash inMath n) :
    ns.map (rewriteNode normalDimension dash inMath) = ns ∧ anyUnclosed ns = false := by
  induction ns with
  | nil => exact ⟨rfl, rfl⟩
  | cons n ns ih =>
    obtain ⟨hn, hns⟩ := List.forall_mem_cons.1 h
    obtain ⟨hmap, hclosed⟩ := ih hns
    exact ⟨by rw [List.map_cons, hn.tidy, hmap], by rw [anyUnclosed, hn.closed, hclosed]; rfl⟩

/-- A call is read as it stands if its arguments are. -/
theorem Settled.readAs_call {name : String} {args : List Node}
    (h : Settled hidden false (mathIn inMath name) false (some ')') args)
    (hname : ∀ c ∈ name.toList, isNameChar c = true)
    (hurl : Text.sameIgnoringCase name "url" = false) :
    ReadAs hidden dash inMath next (Node.call name args true).chars [.call name args true] where
  ne_nil := by simp
  chars := by simp
  fits := by
    refine ⟨⟨hname, by simp, ?_⟩, trivial⟩
    rw [if_neg (by simp [hurl]), if_pos rfl]
    exact h.fits
  items := List.forall_mem_singleton.2 ⟨rfl, h.spaced⟩
  tidy hshown := by
    obtain ⟨hmap, hclosed⟩ := map_eq_self_of_isTidy (h.tidy hshown)
    exact List.forall_mem_singleton.2
      ⟨by rw [rewriteNode_call, hmap], by rw [unclosed, hclosed]; rfl⟩
  plus hhidden := by rw [anyNumber, numberIn, h.plus hhidden]; rfl

/-- The body of `url` is one word and stays as it is. -/
theorem rewriteNode_url {f : Bool → Dimension → Dimension} {name : String} {args : List Node}
    {closed : Bool} (h : Fits next (.call name args closed))
    (hurl : Text.sameIgnoringCase name "url" = true) :
    rewriteNode f dash inMath (.call name args closed) = .call name args closed := by
  obtain ⟨-, -, hbody⟩ := h
  rw [if_pos hurl] at hbody
  obtain ⟨body, rfl, -⟩ := hbody
  simp [wordText]

/-- The body of an address is left as it is. -/
theorem readAs_url {name : String} {args : List Node} {next' : Option Char}
    (h : Fits next' (.call name args true)) (hurl : Text.sameIgnoringCase name "url" = true) :
    ReadAs false dash inMath next
      (rewriteNode normalDimension dash inMath (.call name args true)).chars
      [.call name args true] := by
  have htidy :
      rewriteNode normalDimension dash inMath (.call name args true) = .call name args true :=
    rewriteNode_url h hurl
  obtain ⟨hname, -, hbody⟩ := h
  rw [if_pos hurl] at hbody
  obtain ⟨body, rfl, hparen⟩ := hbody
  rw [htidy]
  refine readAs_singleton ⟨hname, by simp, ?_⟩ ⟨htidy, rfl⟩ rfl ⟨trivial, trivial⟩
  rw [if_pos hurl]
  exact ⟨body, rfl, hparen⟩

/-! ### Numbers -/

/-- A call that begins where a number ends has no name. -/
theorem name_eq_empty_of_continuesWord {name : String}
    (hname : ∀ c ∈ name.toList, isNameChar c = true)
    (h : ∀ c ∈ lookahead (name.toList ++ ['(']), continuesWord [c] = false) : name = "" := by
  cases hchars : name.toList with
  | nil => exact String.toList_eq_nil_iff.1 hchars
  | cons c cs =>
    have hc : isNameChar c = true := hname c (by simp [hchars])
    have hfalse := h (seenAs c) (by rw [hchars]; rfl)
    rw [seenAs_of_isWordChar (isWordChar_of_isNameChar hc)] at hfalse
    rw [isNameChar_of_continuesWord hfalse] at hc
    cases hc

/-- What was seen is seen again, or else one character of a word in place of another. -/
def SeenAlike (seen seen' : Option Char) : Prop :=
  seen' = seen ∨
    ∃ c c', seen = some c ∧ seen' = some c' ∧ isWordChar c = true ∧ isWordChar c' = true

theorem SeenAlike.or {seen seen' : Option Char} (h : SeenAlike seen seen') (next : Option Char) :
    SeenAlike (seen.or next) (seen'.or next) := by
  rcases h with rfl | ⟨c, c', rfl, rfl, hc, hc'⟩
  · exact .inl rfl
  · exact .inr ⟨c, c', rfl, rfl, hc, hc'⟩

/-- Characters that are no word characters are seen for what they are. -/
theorem SeenAlike.eq_of_not_isWordChar {seen seen' : Option Char} (h : SeenAlike seen seen')
    (hseen : ∀ c ∈ seen, isWordChar c = false) : seen' = seen := by
  rcases h with rfl | ⟨c, c', rfl, -, hc, -⟩
  · rfl
  · rw [hseen c rfl] at hc
    cases hc

theorem SeenAlike.ne_space {seen seen' : Option Char} (h : SeenAlike seen seen')
    (hseen : seen ≠ some ' ') : seen' ≠ some ' ' := by
  rcases h with rfl | ⟨-, c', -, rfl, -, hc'⟩
  · exact hseen
  · rintro ⟨⟩
    exact absurd hc' (by decide)

theorem seenAlike_cons {c c' : Char} {cs cs' : List Char} (hc : isWordChar c = true)
    (hc' : isWordChar c' = true) : SeenAlike (lookahead (c :: cs)) (lookahead (c' :: cs')) := by
  rw [lookahead_cons, lookahead_cons, seenAs_of_isWordChar hc, seenAs_of_isWordChar hc']
  exact .inr ⟨c, c', rfl, rfl, hc, hc'⟩

/-- Texts that begin with word characters are seen alike. -/
theorem seenAlike_append {cs cs' : List Char} (hne : cs ≠ []) (hne' : cs' ≠ [])
    (hcs : ∀ c ∈ cs, isWordChar c = true) (hcs' : ∀ c ∈ cs', isWordChar c = true)
    (t t' : List Char) : SeenAlike (lookahead (cs ++ t)) (lookahead (cs' ++ t')) := by
  obtain ⟨c, ds, rfl⟩ := List.exists_cons_of_ne_nil hne
  obtain ⟨c', ds', rfl⟩ := List.exists_cons_of_ne_nil hne'
  exact seenAlike_cons (hcs c List.mem_cons_self) (hcs' c' List.mem_cons_self)

/-- Numbers are brought into a form in which canonical values may have them. -/
def Shows (f : Bool → Dimension → Dimension) : Prop :=
  ∀ inMath d, d.IsWritten → (f inMath d).IsShown

/-- Of nodes that are written in another way, a token before them sees the same, or one character of
a word in place of another. -/
theorem seenAlike_rewriteNode {f : Bool → Dimension → Dimension} (hf : Shows f)
    (dash inMath : Bool) {ns : List Node} (h : AllFit next ns) :
    SeenAlike (lookahead (charsAll ns))
      (lookahead (charsAll (ns.map (rewriteNode f dash inMath)))) := by
  cases ns with
  | nil => exact .inl rfl
  | cons n ns =>
    rw [List.map_cons, charsAll_cons, charsAll_cons]
    cases n with
    | word text =>
      have hword := isWord_wordText dash h.1.1
      rw [rewriteNode_word]
      exact seenAlike_append h.1.1.ne_nil hword.ne_nil h.1.1.chars hword.chars _ _
    | number d =>
      have hshown := hf inMath d h.1.1
      rw [rewriteNode_number]
      exact seenAlike_append h.1.1.chars_ne_nil hshown.chars_ne_nil h.1.1.wordChars
        hshown.wordChars _ _
    | string quote content =>
      -- The quotes may change, but both kinds are seen alike.
      obtain ⟨quote', hquote', -, hnode, -⟩ := doubleQuotedNode_string h.1.1 h.1.2
      have hseen : ∀ {c}, isQuote c = true → seenAs c = '"' := by
        intro c hc
        rcases isQuote_cases hc with rfl | rfl <;> rfl
      left
      rw [rewriteNode_string, hnode, chars, chars]
      simp only [List.cons_append, lookahead_cons, hseen hquote', hseen h.1.1]
    | call name args closed =>
      left
      rw [rewriteNode_call, ← charsAll_cons, ← charsAll_cons, lookahead_call, lookahead_call]
    | space => exact .inl (by rw [rewriteNode_space]; rfl)
    | divider mark => exact .inl (by rw [rewriteNode_divider]; rfl)

/-- A number that has overflowed is spelled like a name. -/
theorem mem_infinite {e : Dimension} (h : e.IsInfinite) :
    ∀ c ∈ e.chars, isNameChar c = true ∧ c.isUpper = false := by
  have hall : e.chars.all (fun c => isNameChar c && !c.isUpper) = true := by
    rcases h with rfl | rfl <;> decide
  simpa using hall

/-- Seconds beyond the range of doubles begin a word. -/
theorem isWord_infinite {e : Dimension} (h : e.IsInfinite) {cs : List Char}
    (hcs : ∀ c ∈ cs, isWordChar c = true) : IsWord (e.chars ++ cs) := by
  have hchars : e.chars = ['i', 'n', 'f', 's'] ∨ e.chars = ['-', 'i', 'n', 'f', 's'] := by
    rcases h with rfl | rfl <;> decide
  have hinf : ∀ t, readUnsigned ('i' :: t) = none := readUnsigned_cons_of_isAlpha (by decide)
  refine ⟨?_, ?_, ?_⟩
  · rcases hchars with hchars | hchars <;> simp [hchars]
  · intro c hc
    rcases List.mem_append.1 hc with hc | hc
    · exact isWordChar_of_isNameChar (mem_infinite h c hc).1
    · exact hcs c hc
  · rcases hchars with hchars | hchars <;>
      simp [hchars, readNumberLexeme, readDimension, readNumber, hinf]

/-- A word without capitals is read as it stands. -/
theorem readAs_ofList {cs : List Char} (hcs : IsWord cs)
    (hnext : ∀ c ∈ next, isWordChar c = false)
    (hopen : next = some '(' → ∃ c ∈ cs, isNameChar c = false)
    (hlower : dash = true → ∀ c ∈ cs, c.isUpper = false) :
    ReadAs false dash inMath next cs [.word (String.ofList cs)] := by
  have hchars : (String.ofList cs).toList = cs := String.toList_ofList
  have hfits : Fits next (.word (String.ofList cs)) := by
    rw [Fits, hchars]
    exact ⟨hcs, hnext, hopen⟩
  have hread : ReadAs false dash inMath next (Node.word (String.ofList cs)).chars
      [.word (String.ofList cs)] :=
    readAs_singleton hfits (isTidy_word (wordText_eq_self (by rwa [hchars]))) rfl trivial
  rwa [chars, hchars] at hread

/-- A number that ends where every token does. -/
theorem exists_readAs_number {d : Dimension} (hd : d.IsWritten) (hnext : Ends next) :
    ∃ ns, ReadAs false dash inMath next
      (rewriteNode normalDimension dash inMath (.number d)).chars ns := by
  rw [rewriteNode_number]
  rcases normalDimension_cases inMath hd with hcanonical | hinfinite
  · exact ⟨_, readAs_singleton (fits_number_of_ends hcanonical.isWritten hnext)
      (isTidy_number hcanonical.normal) rfl trivial⟩
  · have hword : IsWord (normalDimension inMath d).chars := by
      simpa using isWord_infinite hinfinite (List.forall_mem_nil _)
    exact ⟨_, readAs_ofList hword (fun c hc => (hnext c hc).1) (fun h => absurd rfl (hnext _ h).2)
      fun _ c hc => (mem_infinite hinfinite c hc).2⟩

/-- Whether the text begins with a number that has a plus sign. -/
def startsWithPlus : List Char → Bool
  | '+' :: cs => (readNumberLexeme ('+' :: cs)).isSome
  | _ => false

/-- A number that does not continue a word has a plus sign. -/
theorem startsWithPlus_of_continuesWord {cs : List Char} (hcontinues : continuesWord cs = false) :
    startsWithPlus cs = (readNumberLexeme cs).isSome := by
  cases hread : readNumberLexeme cs with
  | none =>
    unfold startsWithPlus
    split
    · rw [hread]
    · rfl
  | some read =>
    obtain ⟨d, -, hd, rfl, -⟩ := exists_number_of_readNumberLexeme hread
    obtain ⟨c, number, hnumber⟩ := List.exists_cons_of_ne_nil hd.number.ne_nil
    have hmem : c ∈ d.number.toList := by simp [hnumber]
    rw [Dimension.chars, hnumber, List.cons_append, List.cons_append] at hcontinues hread ⊢
    rcases hd.number.mem hmem with hdigit | rfl | rfl | rfl
    · have hname : isNameChar c = true :=
        isNameChar_of_isAlphanum (by simp [Char.isAlphanum, hdigit])
      simp [continuesWord, hname] at hcontinues
    · simp [continuesWord] at hcontinues
    · rw [startsWithPlus, hread]
    · simp [continuesWord, show isNameChar '-' = true by decide] at hcontinues

/-- Characters of words that begin with a number that has a plus sign. -/
theorem exists_readAs_plus {cs : List Char} (hcs : ∀ c ∈ cs, isWordChar c = true)
    (hplus : startsWithPlus cs = true) (hnext : ∀ c ∈ next, isWordChar c = false) :
    ∃ ns, ReadAs true dash inMath next cs ns := by
  unfold startsWithPlus at hplus
  split at hplus
  case h_2 => cases hplus
  case h_1 cs =>
    obtain ⟨items, hitems, hfits⟩ := exists_allFit_run hcs hnext fun _ _ =>
      ⟨'+', List.mem_cons_self, by decide⟩
    obtain ⟨d, ns, rfl⟩ := hitems.number (Option.isSome_iff_ne_none.1 hplus)
    have hsign : d.number.toList.head? = some '+' := by
      obtain ⟨c, number, hnumber⟩ := List.exists_cons_of_ne_nil hfits.1.1.number.ne_nil
      have hchars := hitems.chars
      rw [charsAll_cons, chars, hnumber] at hchars
      rw [hnumber, List.head?_cons, (List.cons.inj hchars).1]
    refine ⟨_, by simp, hitems.chars, hfits, hitems.itemsOnly, by simp, fun _ => ?_⟩
    simp [anyNumber, numberIn, hasPlus, hsign]

/-- A zero whose unit was dropped takes a percent sign as its unit, and the number ends there or
runs on into a word. -/
theorem exists_readAs_percent {cs : List Char} (hcs : ∀ c ∈ cs, isWordChar c = true)
    (hlower : dash = true → ∀ c ∈ cs, c.isUpper = false)
    (hnext : ∀ c ∈ next, isWordChar c = false) :
    ∃ ns, ReadAs (startsWithPlus cs) dash false next ('0' :: '%' :: cs) ns := by
  have hchars : (⟨"0", "%"⟩ : Dimension).chars = ['0', '%'] := by decide
  have hzero : (⟨"0", "%"⟩ : Dimension).IsWritten :=
    ⟨toList_zero ▸ isNumber_zero, .inl (by decide)⟩
  have hnormal : normalDimension false ⟨"0", "%"⟩ = ⟨"0", "%"⟩ := normalDimension_zero "%"
  cases hcontinues : continuesWord cs with
  | true =>
    -- The word runs on behind the percent sign, so that all of it is one word.
    have hread : readUnsigned ('0' :: '%' :: cs) = some (['0'], '%' :: cs) :=
      readUnsigned_whole (List.forall_mem_singleton.2 (by decide))
        (Text.stops_cons.2 (by decide)) (Text.stops_cons.2 (by decide))
    have hword : IsWord ('0' :: '%' :: cs) := by
      refine ⟨by simp, ?_, ?_⟩
      · exact List.forall_mem_cons.2 ⟨by decide, List.forall_mem_cons.2 ⟨by decide, hcs⟩⟩
      · simp [readNumberLexeme, readDimension, readNumber, hread, readUnit, hcontinues]
    have hplus : startsWithPlus cs = false := by
      unfold startsWithPlus
      split
      · exact absurd hcontinues (by simp [continuesWord, show isNameChar '+' = false by decide])
      · rfl
    rw [hplus]
    refine ⟨_, readAs_ofList hword hnext (fun _ => ⟨'%', by simp, by decide⟩) fun hdash => ?_⟩
    exact List.forall_mem_cons.2 ⟨by decide, List.forall_mem_cons.2 ⟨by decide, hlower hdash⟩⟩
  | false =>
    -- The number ends at the percent sign; what is left is a word or begins with a number.
    have hfits : Fits ((lookahead cs).or next) (.number ⟨"0", "%"⟩) :=
      fits_number_of_run hzero hcs hcontinues (fun hunit => absurd hunit (by decide)) hnext
        fun _ => ⟨'%', by simp [hchars], by decide⟩
    have hsplit : '0' :: '%' :: cs = (⟨"0", "%"⟩ : Dimension).chars ++ cs :=
      congrArg (· ++ cs) hchars.symm
    rw [hsplit]
    cases cs with
    | nil =>
      rw [List.append_nil]
      exact ⟨_, readAs_singleton hfits (isTidy_number hnormal) rfl trivial⟩
    | cons c cs =>
      rw [startsWithPlus_of_continuesWord hcontinues]
      cases hnumber : (readNumberLexeme (c :: cs)).isSome with
      | false =>
        have hword : IsWord (c :: cs) := ⟨by simp, hcs, by simpa using hnumber⟩
        have hname : isNameChar c = false := isNameChar_of_continuesWord hcontinues
        exact ⟨_, (readAs_ofList hword hnext (fun _ => ⟨c, by simp, hname⟩) hlower).cons_number
          hfits hnormal⟩
      | true =>
        rw [← startsWithPlus_of_continuesWord hcontinues] at hnumber
        obtain ⟨ns, hns⟩ := exists_readAs_plus hcs hnumber hnext
        exact ⟨_, hns.cons_number hfits hnormal⟩

/-- Whether the number is a zero length outside of calculations, which loses its unit. -/
def dropsUnit (inMath : Bool) (d : Dimension) : Bool :=
  !inMath && d.isZero && lengthUnits.contains (Text.asciiLower d.unit)

/-- A number whose unit is dropped becomes a plain zero. -/
theorem normalDimension_of_dropsUnit {d : Dimension} (h : dropsUnit inMath d = true) :
    inMath = false ∧ normalDimension inMath d = ⟨"0", ""⟩ := by
  obtain ⟨⟨rfl, hzero⟩, hlength⟩ :
      (inMath = false ∧ d.isZero = true) ∧
        lengthUnits.contains (Text.asciiLower d.unit) = true := by
    simpa only [dropsUnit, Bool.and_eq_true, Bool.not_eq_true'] using h
  have hlong : d.isLong = false := by
    have hms : Text.sameIgnoringCase d.unit "ms" = false := by
      rw [Text.sameIgnoringCase, beq_eq_false_iff_ne]
      intro heq
      rw [heq] at hlength
      exact absurd hlength (by decide)
    rw [Dimension.isLong, hms, Bool.false_and]
  have hunit : zeroUnit d.unit = "" := if_pos hlength
  refine ⟨rfl, ?_⟩
  rw [normalDimension_of_not_isLong false hlong, if_neg (by simp), stripZero, if_pos hzero, hunit,
    trimZeros_zero]

/-- Whether the number is a zero that loses its unit, and the word a percent sign with a number that
has a plus sign. -/
def hidesNumber (inMath : Bool) : Node → Node → Bool
  | .number d, .word text =>
    dropsUnit inMath d && text.toList.head? == some '%' && startsWithPlus text.toList.tail
  | _, _ => false

/-- A canonical number ends in front of a word if the raw number did, unless it has lost its unit
and takes a percent sign of the word for one. -/
theorem fits_canonical_cons {d e : Dimension} (h : Dimension.IsCanonical inMath d e) {c : Char}
    (hc : isWordChar c = true) (hcontinues : continuesWord [c] = false)
    (hpercent : c = '%' → d.unit ≠ "") (hjoins : ¬ (dropsUnit inMath d = true ∧ c = '%'))
    (cs : List Char) : Fits ((lookahead (c :: cs)).or next) (.number e) := by
  have hseen : (lookahead (c :: cs)).or next = some c := by
    rw [lookahead_cons, seenAs_of_isWordChar hc]
    rfl
  rw [hseen]
  refine ⟨h.isWritten, ?_, ?_, ?_⟩
  · rintro _ ⟨⟩
    exact hcontinues
  · rintro ⟨⟩
    exact absurd hc (by decide)
  · rintro ⟨⟩ hunit
    rcases h.unit hunit with hplain | ⟨rfl, -, hzero, hlength⟩
    · exact hpercent rfl hplain
    · exact hjoins ⟨by rw [dropsUnit, hzero, hlength]; rfl, rfl⟩

/-- A number and the word behind it. -/
theorem exists_readAs_number_word {d : Dimension} {text : String}
    (hd : Fits ((lookahead text.toList).or next) (.number d)) (htext : Fits next (.word text)) :
    ∃ ns, ReadAs (hidesNumber inMath (.number d) (.word (wordText dash text))) dash inMath next
      ((rewriteNode normalDimension dash inMath (.number d)).chars ++
        (rewriteNode normalDimension dash inMath (.word text)).chars) ns := by
  obtain ⟨hword, hnext, -⟩ := htext
  obtain ⟨c, cs, hchars⟩ := List.exists_cons_of_ne_nil hword.ne_nil
  have hseen : lookahead text.toList = some c := by
    rw [hchars, lookahead_cons, seenAs_of_isWordChar (hword.chars c (by simp [hchars]))]
  rw [hseen] at hd
  obtain ⟨hwritten, hcontinues, -, hpercent⟩ := hd
  have hname : isNameChar c = false := isNameChar_of_continuesWord (hcontinues c rfl)
  obtain ⟨cs', hchars', hlower⟩ := wordText_cons dash hchars hname
  have hword' : IsWord (c :: cs') := hchars' ▸ isWord_wordText dash hword
  have htidy : (rewriteNode normalDimension dash inMath (.word text)).chars = c :: cs' := by
    rw [rewriteNode_word, chars, hchars']
  have hhides : hidesNumber inMath (.number d) (.word (wordText dash text)) =
      (dropsUnit inMath d && c == '%' && startsWithPlus cs') := by
    rw [hidesNumber, hchars']
    rfl
  rw [rewriteNode_number, htidy]
  -- Only a zero that has lost its unit can take a percent sign of the word for a unit.
  by_cases hjoins : dropsUnit inMath d = true ∧ c = '%'
  · obtain ⟨hdrops, rfl⟩ := hjoins
    obtain ⟨rfl, hzero⟩ := normalDimension_of_dropsUnit hdrops
    have heq : (Node.number (normalDimension false d)).chars = ['0'] := by
      rw [chars, hzero]
      decide
    rw [hhides, hdrops, heq]
    exact exists_readAs_percent (fun b hb => hword'.chars b (List.mem_cons_of_mem _ hb))
      (fun hdash b hb => hlower hdash b (List.mem_cons_of_mem _ hb)) hnext
  have hshown : hidesNumber inMath (.number d) (.word (wordText dash text)) = false := by
    rw [hhides]
    simp_all
  rw [hshown]
  rcases normalDimension_cases inMath hwritten with hcanonical | hinfinite
  · have hfits : Fits ((lookahead (c :: cs')).or next) (.number (normalDimension inMath d)) :=
      fits_canonical_cons hcanonical (hword'.chars c (by simp)) (hcontinues c rfl)
        (fun hsign => hpercent (congrArg some hsign)) hjoins cs'
    have hread : ReadAs false dash inMath next (c :: cs') [.word (String.ofList (c :: cs'))] :=
      readAs_ofList hword' hnext (fun _ => ⟨c, by simp, hname⟩) hlower
    exact ⟨_, hread.cons_number hfits hcanonical.normal⟩
  · -- A number that has overflowed is spelled with letters and becomes one word with the next.
    refine ⟨_, readAs_ofList (isWord_infinite hinfinite hword'.chars) hnext
      (fun _ => ⟨c, by simp, hname⟩) fun hdash b hb => ?_⟩
    rcases List.mem_append.1 hb with hb | hb
    · exact (mem_infinite hinfinite b hb).2
    · exact hlower hdash b hb

/-- A name with a digit in it is neither that of a calculation nor `url`. -/
theorem not_mem_mathCalls {name : String} (h : ∃ c ∈ name.toList, c.isDigit = true) :
    mathCalls.contains (Text.asciiLower name) = false ∧
      Text.sameIgnoringCase name "url" = false := by
  obtain ⟨c, hc, hdigit⟩ := h
  have hlower : c ∈ (Text.asciiLower name).toList := by
    rw [Text.toList_asciiLower]
    exact List.mem_map.2 ⟨c, hc, Text.toLower_of_not_isUpper (isUpper_of_isDigit hdigit)⟩
  have hnone : ("url" :: mathCalls).all (!·.toList.any Char.isDigit) = true := by decide
  have hne : ∀ known ∈ "url" :: mathCalls, Text.asciiLower name ≠ known := by
    rintro known hknown rfl
    have hnot := List.all_eq_true.1 hnone _ hknown
    rw [List.any_eq_true.2 ⟨c, hlower, hdigit⟩] at hnot
    cases hnot
  constructor
  · rw [List.contains_eq_mem, decide_eq_false_iff_not]
    exact fun hmem => hne _ (List.mem_cons_of_mem _ hmem) rfl
  · rw [Text.sameIgnoringCase, show Text.asciiLower "url" = "url" by decide, beq_eq_false_iff_ne]
    exact hne "url" (by simp)

/-- The text of a canonical number is no name of a calculation and not `url`. -/
theorem not_mem_mathCalls_ofList {d e : Dimension}
    (h : Dimension.IsCanonical inMath d e ∨ e.IsInfinite) :
    mathCalls.contains (Text.asciiLower (String.ofList e.chars)) = false ∧
      Text.sameIgnoringCase (String.ofList e.chars) "url" = false := by
  rcases h with hcanonical | rfl | rfl
  · obtain ⟨c, hc, hdigit⟩ := hcanonical.isWritten.number.exists_digit
    refine not_mem_mathCalls ⟨c, ?_, hdigit⟩
    rw [String.toList_ofList]
    exact List.mem_append_left _ hc
  · decide
  · decide

/-- A number and the parentheses behind it. If the number is made of name characters it is read as
the name of a call. -/
theorem exists_readAs_number_call {d : Dimension} {args : List Node} (hd : d.IsWritten)
    (hargs : Settled hidden false inMath false (some ')') args) :
    ∃ ns, ReadAs hidden dash inMath next
      ((rewriteNode normalDimension dash inMath (.number d)).chars ++
        (Node.call "" args true).chars) ns := by
  have hcases := normalDimension_cases inMath hd
  rw [rewriteNode_number]
  generalize normalDimension inMath d = e at hcases ⊢
  by_cases hname : ∀ c ∈ e.chars, isNameChar c = true
  · obtain ⟨hmath, hurl⟩ := not_mem_mathCalls_ofList hcases
    -- The characters of the number are taken for the name, which is that of no math function.
    have hargs' :
        Settled hidden false (mathIn inMath (String.ofList e.chars)) false (some ')') args := by
      rwa [mathIn, hmath, Bool.or_false]
    have hchars : (Node.number e).chars ++ (Node.call "" args true).chars =
        (Node.call (String.ofList e.chars) args true).chars := by
      simp [chars, Dimension.chars]
    rw [hchars]
    exact ⟨_, hargs'.readAs_call (by rwa [String.toList_ofList]) hurl⟩
  · have hcanonical : Dimension.IsCanonical inMath d e :=
      hcases.resolve_right fun h => hname fun c hc => (mem_infinite h c hc).1
    have hargs' : Settled hidden false (mathIn inMath "") false (some ')') args := by
      rwa [mathIn, show mathCalls.contains (Text.asciiLower "") = false by decide, Bool.or_false]
    -- The number ends at the parenthesis, which opens a call without a name.
    have hopen : (lookahead (Node.call "" args true).chars).or next = some '(' := rfl
    have hnumber : Fits ((lookahead (Node.call "" args true).chars).or next) (.number e) := by
      rw [hopen]
      refine ⟨hcanonical.isWritten, ?_, fun _ => by simpa using hname, by simp⟩
      rintro c ⟨⟩
      decide
    exact ⟨_, (hargs'.readAs_call (by simp) (by decide)).cons_number hnumber hcanonical.normal⟩

end AtomicCss.Node
