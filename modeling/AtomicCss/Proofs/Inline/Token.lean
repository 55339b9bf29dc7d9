import AtomicCss.Proofs.Inline.Literal
import AtomicCss.Proofs.Value.Number

/-!
# Writing tokens

Tokens are written one after the other with any blanks before, between and behind them, and are read
back from what is written. Blanks can be left out where no token runs into the next one: a word does
not stand before a word, and a punctuation mark not before a punctuation mark.

* `Layout.text`: the text of tokens with the blanks of a layout.
* `Apart`: rows of tokens that do not run into each other.
* `lex_text`: the tokens of such a text.
-/

namespace AtomicCss.Inline

open Text (Stops)

/-! ### Classes of characters -/

theorem isAlphanum_of_isBlank {c : Char} (h : Text.isBlank c = true) : c.isAlphanum = false := by
  cases hc : c.isAlphanum with
  | false => rfl
  | true =>
    have halphanumeric : Text.isAlphanumeric c = true := by
      simp [Text.isAlphanumeric, (Text.toNat_of_isAlphanum hc).2, hc]
    rw [Text.isBlank_of_isAlphanumeric halphanumeric] at h
    cases h

/-- A blank is not part of an identifier. -/
theorem isIdentifierRest_of_isSeparator {c : Char} (h : isSeparator c = true) :
    Text.isIdentifierRest c = false := by
  rw [isSeparator, Bool.or_eq_true, Bool.or_eq_true] at h
  rcases h with (h | h) | h
  · have hascii : c.isAlpha = false ∧ c.isDigit = false := by
      simpa [Char.isAlphanum] using isAlphanum_of_isBlank h
    have hscore : c ≠ '_' := by
      rintro rfl
      cases h
    have hstart : Text.inRanges Text.identifierStartRanges c = false :=
      Text.inRanges_of_apart (by decide +kernel) h
    have hrest : Text.inRanges Text.identifierRestRanges c = false :=
      Text.inRanges_of_apart (by decide +kernel) h
    simp [Text.isIdentifierRest, Text.isIdentifierStart, hascii, hscore, hstart, hrest]
  · rw [beq_iff_eq.1 h]
    decide +kernel
  · rw [beq_iff_eq.1 h]
    decide +kernel

theorem isMark_of_isSeparator {c : Char} (h : isSeparator c = true) : isMark c = false := by
  have hmarks : "~!@#$%^&*-=+|;:,<.>/?".toList.all (!isSeparator ·) = true := by decide
  cases hc : isMark c with
  | false => rfl
  | true =>
    have hnot := List.all_eq_true.1 hmarks c (List.contains_iff_mem.1 hc)
    simp [h] at hnot

/-! ### Layouts -/

/-- Characters between two tokens. -/
structure Gap where
  /-- The characters. -/
  chars : List Char
  /-- All of them separate tokens. -/
  separates : ∀ c ∈ chars, isSeparator c = true

/-- The gaps before the tokens of a text, and behind the last one. -/
abbrev Layout :=
  Nat → Gap

/-- The layout without its first gap. -/
def Layout.rest (layout : Layout) : Layout :=
  fun n => layout (n + 1)

/-- The characters of a token. -/
def Token.chars : Token → List Char
  | .ident text => text.toList
  | .literal written _ => written.toList
  | .mark c _ => [c]
  | .opening .paren => ['(']
  | .opening .square => ['[']
  | .opening .brace => ['\x7b']
  | .closing .paren => [')']
  | .closing .square => [']']
  | .closing .brace => ['\x7d']

/-- The characters of tokens with the gaps of a layout. -/
def Layout.write (layout : Layout) : List Token → List Char
  | [] => (layout 0).chars
  | t :: ts => (layout 0).chars ++ (t.chars ++ write layout.rest ts)

/-- The text of tokens with the gaps of a layout. -/
def Layout.text (layout : Layout) (ts : List Token) : String :=
  String.ofList (layout.write ts)

/-! ### Tokens that stand apart -/

/-- The token of a literal. -/
def Literal.token (l : Literal) : Token :=
  .literal l.written (some l.content)

/-- An identifier or a literal. -/
def Token.isWord : Token → Bool
  | .ident _ => true
  | .literal _ _ => true
  | _ => false

/-- A punctuation mark. -/
def Token.isMark : Token → Bool
  | .mark _ _ => true
  | _ => false

/-- Tokens in a row: the word `null`, string literals, colons, commas and brackets, none of which
runs into the next one. -/
inductive Apart : List Token → Prop where
  | nil : Apart []
  | null {ts : List Token} (next : ∀ u ∈ ts.head?, u.isWord = false) (rest : Apart ts) :
      Apart (.ident "null" :: ts)
  | literal (l : Literal) {ts : List Token} (next : ∀ u ∈ ts.head?, u.isWord = false)
      (rest : Apart ts) : Apart (l.token :: ts)
  | mark {c : Char} {ts : List Token} (known : c = ':' ∨ c = ',')
      (next : ∀ u ∈ ts.head?, u.isMark = false) (rest : Apart ts) : Apart (.mark c false :: ts)
  | opening (b : Bracket) {ts : List Token} (rest : Apart ts) : Apart (.opening b :: ts)
  | closing (b : Bracket) {ts : List Token} (rest : Apart ts) : Apart (.closing b :: ts)

/-- The characters with which such a token begins. -/
def Token.firsts : Token → List Char
  | .ident _ => ['n']
  | .literal _ _ => ['"', 'r']
  | .mark _ _ => [':', ',']
  | .opening _ => ['(', '[', '\x7b']
  | .closing _ => [')', ']', '\x7d']

/-- Every token has a first character, which tells its kind. -/
theorem Apart.exists_first {t : Token} {ts : List Token} (h : Apart (t :: ts)) :
    ∃ c cs, t.chars = c :: cs ∧ c ∈ t.firsts := by
  cases h with
  | null => exact ⟨'n', ['u', 'l', 'l'], rfl, by simp [Token.firsts]⟩
  | literal l =>
    rcases readToken_eq_literal l.reads with ⟨ds, hds⟩ | ⟨n, ds, hds, -⟩
    · exact ⟨_, _, hds, by simp [Literal.token, Token.firsts]⟩
    · exact ⟨_, _, hds, by simp [Literal.token, Token.firsts]⟩
  | mark known => exact ⟨_, _, rfl, by simpa [Token.firsts] using known⟩
  | opening b => cases b <;> exact ⟨_, _, rfl, by simp [Token.firsts]⟩
  | closing b => cases b <;> exact ⟨_, _, rfl, by simp [Token.firsts]⟩

/-- What is written does not begin with a class of characters that has neither blanks nor beginnings
of the first token. -/
theorem Apart.stops_write {ts : List Token} (h : Apart ts) (layout : Layout) {p : Char → Bool}
    (hgap : ∀ c, isSeparator c = true → p c = false)
    (hfirst : ∀ t ∈ ts.head?, t.firsts.all (!p ·) = true) : Stops p (layout.write ts) := by
  have hstops : ∀ cs, Stops p cs → Stops p ((layout 0).chars ++ cs) := by
    intro cs hcs
    refine Stops.append ?_ hcs
    intro c hc
    exact hgap c ((layout 0).separates c (List.mem_of_mem_head? hc))
  cases ts with
  | nil => simpa [Layout.write] using hstops [] (Text.stops_nil p)
  | cons t ts =>
    obtain ⟨c, cs, hchars, hc⟩ := h.exists_first
    have hnot := List.all_eq_true.1 (hfirst t rfl) c hc
    rw [Layout.write, hchars]
    exact hstops _ (Text.stops_cons.2 (by simpa using hnot))

/-- A text does not go on an identifier if no word stands first in it. -/
theorem stops_isIdentifierRest_write {ts : List Token} (h : Apart ts) (layout : Layout)
    (hnext : ∀ u ∈ ts.head?, u.isWord = false) :
    Stops Text.isIdentifierRest (layout.write ts) := by
  refine h.stops_write layout (fun _ => isIdentifierRest_of_isSeparator) fun u hu => ?_
  have hword := hnext u hu
  cases u with
  | ident | literal => cases hword
  | mark | opening | closing =>
    simp only [Token.firsts]
    decide +kernel

/-- A text does not begin with a mark if no mark stands first in it. -/
theorem startsMark_write {ts : List Token} (h : Apart ts) (layout : Layout)
    (hnext : ∀ u ∈ ts.head?, u.isMark = false) : startsMark (layout.write ts) = false := by
  have hstops : Stops isMark (layout.write ts) := by
    refine h.stops_write layout (fun _ => isMark_of_isSeparator) fun u hu => ?_
    have hmark := hnext u hu
    cases u with
    | mark => cases hmark
    | ident | literal | opening | closing =>
      simp only [Token.firsts]
      decide
  cases hwrite : layout.write ts with
  | nil => rfl
  | cons c cs =>
    rw [hwrite] at hstops
    simp [startsMark, Text.stops_cons.1 hstops]

/-! ### Reading what is written -/

/-- The characters are read as these tokens. -/
def Lexed (cs : List Char) (ts : List Token) : Prop :=
  ∀ steps, cs.length ≤ steps → lexWithin steps cs = some ts

theorem lexed_nil : Lexed [] [] := by
  intro steps _
  cases steps <;> rfl

/-- A gap in front of a text changes none of its tokens. -/
theorem Lexed.gap {cs : List Char} {ts : List Token} (h : Lexed cs ts) (gap : Gap) :
    Lexed (gap.chars ++ cs) ts := by
  obtain ⟨chars, hseparates⟩ := gap
  induction chars with
  | nil => exact h
  | cons c chars ih =>
    intro steps hsteps
    simp only [List.cons_append, List.length_cons] at hsteps
    obtain ⟨steps, rfl⟩ : ∃ n, steps = n + 1 := ⟨steps - 1, by omega⟩
    show lexWithin (steps + 1) (c :: (chars ++ cs)) = some ts
    rw [lexWithin, if_pos (hseparates c (by simp))]
    exact ih (fun d hd => hseparates d (by simp [hd])) steps (by simpa using hsteps)

theorem readComment_cons {c : Char} (h : c ≠ '/') (cs : List Char) :
    readComment (c :: cs) = none := by
  simp [readComment, h]

/-- A token is read, and then what comes behind it. -/
theorem Lexed.token {t : Token} {ts : List Token} {cs : List Char} (h : Lexed cs ts)
    (hfirst : ∃ c ds, t.chars = c :: ds ∧ c ∈ t.firsts)
    (hread : readToken (t.chars ++ cs) = some (t, cs)) : Lexed (t.chars ++ cs) (t :: ts) := by
  obtain ⟨c, ds, hchars, hc⟩ := hfirst
  have hplain : t.firsts.all (fun c => !isSeparator c && c != '/') = true := by
    cases t <;> (simp only [Token.firsts]; decide)
  have hplain := List.all_eq_true.1 hplain c hc
  rw [Bool.and_eq_true] at hplain
  obtain ⟨hseparator, hslash⟩ := hplain
  rw [hchars, List.cons_append] at hread ⊢
  intro steps hsteps
  rw [List.length_cons, List.length_append] at hsteps
  obtain ⟨steps, rfl⟩ : ∃ n, steps = n + 1 := ⟨steps - 1, by omega⟩
  rw [lexWithin, if_neg (by simpa using hseparator), readComment_cons (by simpa using hslash)]
  simp only [hread]
  show (lexWithin steps cs).bind _ = _
  rw [h steps (by omega)]
  rfl

/-- The word `null` is read as an identifier. -/
theorem readToken_null {cs : List Char} (h : Stops Text.isIdentifierRest cs) :
    readToken ((Token.ident "null").chars ++ cs) = some (.ident "null", cs) := by
  have hname : readIdentifier ['n', 'u', 'l', 'l'] = some (['n', 'u', 'l', 'l'], []) := by decide
  show readToken ('n' :: (['u', 'l', 'l'] ++ cs)) = _
  rw [readToken, if_neg (by decide), if_neg (by decide), if_neg (by decide), if_pos (by decide),
    ← List.cons_append, readIdentToken, readIdentifier_append hname h]
  rfl

/-- A colon or a comma is read as a mark that stands alone. -/
theorem readToken_mark {c : Char} {cs : List Char} (known : c = ':' ∨ c = ',')
    (h : startsMark cs = false) : readToken (c :: cs) = some (.mark c false, cs) := by
  have hmark : startsMark (c :: cs) = true := by
    rcases known with rfl | rfl <;> rfl
  have hbracket : bracketOf? c = none := by
    rcases known with rfl | rfl <;> rfl
  rw [readToken, if_neg, if_neg, if_neg, if_neg, hbracket]
  · simp only [hmark, h, if_true]
  all_goals rcases known with rfl | rfl <;> decide

/-- Tokens that stand apart are read back from what is written. -/
theorem Apart.lexed_write {ts : List Token} (h : Apart ts) (layout : Layout) :
    Lexed (layout.write ts) ts := by
  induction h generalizing layout with
  | nil =>
    rw [Layout.write, ← List.append_nil (layout 0).chars]
    exact lexed_nil.gap _
  | null next rest ih =>
    have hfirst := (Apart.null next rest).exists_first
    have hstops := stops_isIdentifierRest_write rest layout.rest next
    exact ((ih layout.rest).token hfirst (readToken_null hstops)).gap _
  | literal l next rest ih =>
    have hfirst := (Apart.literal l next rest).exists_first
    have hstops := stops_isIdentifierRest_write rest layout.rest next
    exact ((ih layout.rest).token hfirst (readToken_append l.reads hstops)).gap _
  | mark known next rest ih =>
    have hfirst := (Apart.mark known next rest).exists_first
    have hmark := startsMark_write rest layout.rest next
    exact ((ih layout.rest).token hfirst (readToken_mark known hmark)).gap _
  | opening b rest ih =>
    have hfirst := (Apart.opening b rest).exists_first
    refine ((ih layout.rest).token hfirst ?_).gap _
    cases b <;> rfl
  | closing b rest ih =>
    have hfirst := (Apart.closing b rest).exists_first
    refine ((ih layout.rest).token hfirst ?_).gap _
    cases b <;> rfl

/-- The tokens of a text are those that were written. -/
theorem lex_text {ts : List Token} (h : Apart ts) (layout : Layout) :
    lex (layout.text ts) = some ts := by
  have hmark : Stops (· == '\ufeff') (layout.write ts) := by
    refine h.stops_write layout (fun c hc => ?_) fun t _ => ?_
    · cases hbom : c == '\ufeff' with
      | false => rfl
      | true =>
        rw [beq_iff_eq.1 hbom] at hc
        exact absurd hc (by decide)
    · cases t <;> (simp only [Token.firsts]; decide)
  have hdrop : dropByteOrderMark (layout.write ts) = layout.write ts := by
    unfold dropByteOrderMark
    split
    · next hwrite =>
      rw [hwrite] at hmark
      exact absurd (Text.stops_cons.1 hmark) (by decide)
    · rfl
  rw [lex, Layout.text, String.toList_ofList, hdrop]
  exact h.lexed_write layout _ (Nat.le_refl _)

end AtomicCss.Inline
