import AtomicCss.Proofs.Value.Token

/-!
# Reading what was written

Written side by side, the nodes of a value are read again as they are, for every one of them ends
where it did before: nothing but the width of a gap is lost, and the token in front of a gap sees
no more of it than that it is one.

* `Reads cs ns rest`: the text `cs` holds the nodes `ns` and then `rest`; this is what `readNodes`
  does (`readNodes_iff`), with no bound on the steps.
* `Node.AllFit next ns`: every one of the nodes is a token and ends where the next one begins.
* `Reads.allFit`, `Node.AllFit.reads`: the nodes that are read fit, and nodes that fit are read.
* `parseValue_render`: reading the text of a value gives the value again, and nothing is lost but
  gaps.
-/

namespace AtomicCss

open Text (Stops)

/-! ### Reading without a bound -/

/-- The text `cs` holds the nodes `ns` and then `rest`, with which no token begins. -/
inductive Reads : List Char → List Node → List Char → Prop where
  | done {cs : List Char} (h : readLexeme cs = none) : Reads cs [] cs
  | leaf {cs t rest : List Char} {node : Node} {nodes : List Node} (h : Lexes cs (.leaf node) t)
      (hnodes : Reads t nodes rest) : Reads cs (node :: nodes) rest
  | call {cs t u rest : List Char} {name : String} {args nodes : List Node}
      (h : Lexes cs (.opening name) t) (hargs : Reads t args u)
      (hnodes : Reads (readClosing u).2 nodes rest) :
      Reads cs (.call name args (readClosing u).1 :: nodes) rest

theorem length_readClosing_le (cs : List Char) : (readClosing cs).2.length ≤ cs.length := by
  unfold readClosing
  split <;> simp

/-- Every token takes a character. -/
theorem Lexes.length_lt {cs rest : List Char} {l : Lexeme} (h : Lexes cs l rest) :
    rest.length < cs.length := by
  cases h with
  | space _ hne => simpa [List.length_pos_iff] using hne
  | number hd => simpa [List.length_pos_iff] using hd.chars_ne_nil
  | word htext => simpa [List.length_pos_iff] using htext.ne_nil
  | _ => simp <;> omega

/-- What is left to read is never longer than the text. -/
theorem Reads.length_le {cs rest : List Char} {ns : List Node} (h : Reads cs ns rest) :
    rest.length ≤ cs.length := by
  induction h with
  | done => exact Nat.le_refl _
  | leaf h _ ih => exact Nat.le_trans ih (Nat.le_of_lt h.length_lt)
  | @call cs t u rest _ _ _ h _ _ ihargs ihnodes =>
    have hclosing := length_readClosing_le u
    have hlt := h.length_lt
    omega

/-- What is left begins with no token. -/
theorem Reads.readLexeme_rest {cs rest : List Char} {ns : List Node} (h : Reads cs ns rest) :
    readLexeme rest = none := by
  induction h with
  | done h => exact h
  | leaf _ _ ih => exact ih
  | call _ _ _ _ ih => exact ih

/-- As many steps as there are characters suffice to read a text. -/
theorem reads_within {steps : Nat} {cs : List Char} (h : cs.length ≤ steps) :
    Reads cs (readNodesWithin steps cs).1 (readNodesWithin steps cs).2 := by
  induction steps generalizing cs with
  | zero =>
    obtain rfl : cs = [] := List.eq_nil_of_length_eq_zero (Nat.le_zero.1 h)
    exact .done rfl
  | succ steps ih =>
    cases hread : readLexeme cs with
    | none =>
      simp only [readNodesWithin, hread]
      exact .done hread
    | some read =>
      obtain ⟨l, t⟩ := read
      have hlexes := readLexeme_iff.1 hread
      -- A token has at least one character, so that one step fewer suffices behind it.
      have hlt := hlexes.length_lt
      cases l with
      | leaf node =>
        simp only [readNodesWithin, hread]
        exact .leaf hlexes (ih (by omega))
      | opening name =>
        simp only [readNodesWithin, hread]
        have hargs : Reads t (readNodesWithin steps t).1 (readNodesWithin steps t).2 :=
          ih (by omega)
        have hle := hargs.length_le
        have hclosing := length_readClosing_le (readNodesWithin steps t).2
        exact .call hlexes hargs (ih (by omega))

/-- A text begins with one token only. -/
theorem Lexes.unique {cs t t' : List Char} {l l' : Lexeme} (h : Lexes cs l t)
    (h' : Lexes cs l' t') : l = l' ∧ t = t' := by
  have heq := (readLexeme_iff.2 h).symm.trans (readLexeme_iff.2 h')
  exact Prod.ext_iff.1 (Option.some.inj heq)

theorem Lexes.readLexeme_ne_none {cs t : List Char} {l : Lexeme} (h : Lexes cs l t) :
    readLexeme cs ≠ none := by
  rw [readLexeme_iff.2 h]
  exact Option.some_ne_none _

/-- A text holds one row of nodes only. -/
theorem Reads.unique {cs rest rest' : List Char} {ns ns' : List Node} (h : Reads cs ns rest)
    (h' : Reads cs ns' rest') : ns = ns' ∧ rest = rest' := by
  induction h generalizing ns' rest' with
  | done h =>
    cases h' with
    | done => exact ⟨rfl, rfl⟩
    | leaf hl | call hl => exact absurd h hl.readLexeme_ne_none
  | leaf h _ ih =>
    cases h' with
    | done hnone => exact absurd hnone h.readLexeme_ne_none
    | leaf hl hnodes =>
      obtain ⟨heq, rfl⟩ := h.unique hl
      cases heq
      obtain ⟨rfl, rfl⟩ := ih hnodes
      exact ⟨rfl, rfl⟩
    | call hl => cases (h.unique hl).1
  | call h _ _ ihargs ihnodes =>
    cases h' with
    | done hnone => exact absurd hnone h.readLexeme_ne_none
    | leaf hl => cases (h.unique hl).1
    | call hl hargs hnodes =>
      obtain ⟨heq, rfl⟩ := h.unique hl
      cases heq
      obtain ⟨rfl, rfl⟩ := ihargs hargs
      obtain ⟨rfl, rfl⟩ := ihnodes hnodes
      exact ⟨rfl, rfl⟩

/-- The reader finds the nodes that a text holds. -/
theorem readNodes_iff {cs rest : List Char} {ns : List Node} :
    readNodes cs = (ns, rest) ↔ Reads cs ns rest := by
  constructor
  · intro h
    have hreads := reads_within (Nat.le_refl cs.length)
    rwa [← readNodes, h] at hreads
  · intro h
    obtain ⟨hns, hrest⟩ := h.unique (reads_within (Nat.le_refl cs.length))
    exact Prod.ext hns.symm hrest.symm

/-- A value is read as the nodes that its text holds up to its end. -/
theorem parseValue_eq_ok {s : String} {ns : List Node} :
    parseValue s = .ok ns ↔ Reads s.toList ns [] := by
  have hrest : ∀ rest, ParseFailure.ofRest? rest = none ↔ rest = [] := by
    intro rest
    cases rest with
    | nil => simp [ParseFailure.ofRest?]
    | cons c rest =>
      simp only [ParseFailure.ofRest?, reduceCtorEq, iff_false]
      split
      · simp
      · split <;> simp
  rw [← readNodes_iff, parseValue]
  constructor
  · intro h
    split at h
    · next hnone => exact Prod.ext (Except.ok.inj h) ((hrest _).1 hnone)
    · cases h
  · intro h
    rw [h]
    rfl

/-! ### What a token sees of what follows -/

/-- All gaps look alike, and so do the two quotes. -/
def seenAs (c : Char) : Char :=
  if isGap c then ' ' else if isQuote c then '"' else c

/-- What a token sees of the text behind it: its first character. -/
def lookahead (cs : List Char) : Option Char :=
  cs.head?.map seenAs

@[simp] theorem lookahead_nil : lookahead [] = none := rfl

theorem lookahead_cons (c : Char) (cs : List Char) : lookahead (c :: cs) = some (seenAs c) := rfl

/-- A text is seen by its own first character, if it has one. -/
theorem lookahead_append (cs t : List Char) :
    lookahead (cs ++ t) = (lookahead cs).or (lookahead t) := by
  cases cs <;> rfl

theorem lookahead_eq_none {cs : List Char} : lookahead cs = none ↔ cs = [] := by
  cases cs <;> simp [lookahead_cons]

/-- A character is seen as it is, unless it belongs to a gap or is a quote. -/
theorem seenAs_cases (c : Char) :
    (isGap c = true ∧ seenAs c = ' ') ∨ (isQuote c = true ∧ seenAs c = '"') ∨
      (isGap c = false ∧ isQuote c = false ∧ seenAs c = c) := by
  unfold seenAs
  by_cases hgap : isGap c = true
  · exact .inl ⟨hgap, if_pos hgap⟩
  · by_cases hquote : isQuote c = true
    · exact .inr (.inl ⟨hquote, by rw [if_neg hgap, if_pos hquote]⟩)
    · exact .inr (.inr ⟨by simpa using hgap, by simpa using hquote,
        by rw [if_neg hgap, if_neg hquote]⟩)

/-- A class of characters without gaps and quotes is seen as it is. -/
theorem stops_iff_lookahead {p : Char → Bool} (hgap : ∀ c, isGap c = true → p c = false)
    (hquote : ∀ c, isQuote c = true → p c = false) {cs : List Char} :
    Stops p cs ↔ ∀ c ∈ lookahead cs, p c = false := by
  cases cs with
  | nil => simp [Stops]
  | cons c cs =>
    rw [Text.stops_cons, lookahead_cons]
    rcases seenAs_cases c with ⟨hc, hseen⟩ | ⟨hc, hseen⟩ | ⟨-, -, hseen⟩
    · simp [hseen, hgap c hc, hgap ' ' (by decide)]
    · simp [hseen, hquote c hc, hquote '"' (by decide)]
    · simp [hseen]

theorem mem_head_iff_lookahead {c : Char} (hgap : isGap c = false) (hquote : isQuote c = false)
    {cs : List Char} : c ∈ cs.head? ↔ lookahead cs = some c := by
  cases cs with
  | nil => simp
  | cons d cs =>
    rw [lookahead_cons]
    rcases seenAs_cases d with ⟨hd, hseen⟩ | ⟨hd, hseen⟩ | ⟨-, -, hseen⟩
    · have hne : d ≠ c ∧ ' ' ≠ c := by
        constructor <;> rintro rfl
        · simp [hd] at hgap
        · exact absurd hgap (by decide)
      simp [hseen, hne.1, hne.2]
    · have hne : d ≠ c ∧ '"' ≠ c := by
        constructor <;> rintro rfl
        · simp [hd] at hquote
        · exact absurd hquote (by decide)
      simp [hseen, hne.1, hne.2]
    · simp [hseen]

/-! ### Nodes that fit -/

namespace Node

mutual

/-- The node is a token that ends where `next` is seen. -/
def Fits (next : Option Char) : Node → Prop
  | .word text =>
    IsWord text.toList ∧ (∀ c ∈ next, isWordChar c = false) ∧
      (next = some '(' → ∃ c ∈ text.toList, isNameChar c = false)
  | .number d =>
    d.IsWritten ∧ (∀ c ∈ next, continuesWord [c] = false) ∧
      (next = some '(' → ∃ c ∈ d.chars, isNameChar c = false) ∧ (next = some '%' → d.unit ≠ "")
  | .string quote content => isQuote quote = true ∧ IsContent quote content.toList
  | .call name args closed =>
    (∀ c ∈ name.toList, isNameChar c = true) ∧ (closed = false → next = none) ∧
      if Text.sameIgnoringCase name "url" then
        ∃ body : String, args = [.word body] ∧ ')' ∉ body.toList
      else AllFit (if closed then some ')' else none) args
  | .space => next ≠ some ' '
  | .divider mark => isDividerMark mark = true

/-- The nodes are tokens, and each ends where the next one begins; behind the last one `next` is
seen. -/
def AllFit (next : Option Char) : List Node → Prop
  | [] => True
  | n :: ns => Fits ((lookahead (charsAll ns)).or next) n ∧ AllFit next ns

end

/-- Induction over lists of nodes, with the arguments of a call that comes first. -/
theorem listInduction {motive : List Node → Prop} (nil : motive [])
    (cons : ∀ n ns, (∀ name args closed, n = .call name args closed → motive args) → motive ns →
      motive (n :: ns)) : ∀ ns, motive ns
  | [] => nil
  | n :: ns => by
    refine cons n ns ?_ (listInduction nil cons ns)
    rintro name args closed rfl
    exact listInduction nil cons args

end Node

section Lookahead

variable {rest : List Char}

/-- A word ends where what is seen is no word character. -/
theorem stops_isWordChar_iff :
    Stops isWordChar rest ↔ ∀ c ∈ lookahead rest, isWordChar c = false := by
  refine stops_iff_lookahead (fun c hc => ?_) (fun c hc => ?_)
  · rcases isGap_cases hc with rfl | rfl | rfl | rfl <;> decide
  · rcases isQuote_cases hc with rfl | rfl <;> decide

theorem continuesWord_iff :
    continuesWord rest = false ↔ ∀ c ∈ lookahead rest, continuesWord [c] = false := by
  have hstops : continuesWord rest = false ↔ Stops (fun c => continuesWord [c]) rest := by
    cases rest with
    | nil => simp [Stops, continuesWord]
    | cons c rest => rw [Text.stops_cons]; rfl
  rw [hstops]
  refine stops_iff_lookahead (fun c hc => ?_) (fun c hc => ?_)
  · rcases isGap_cases hc with rfl | rfl | rfl | rfl <;> decide
  · rcases isQuote_cases hc with rfl | rfl <;> decide

theorem notOpened_iff {cs : List Char} :
    NotOpened cs rest ↔ (lookahead rest = some '(' → ∃ c ∈ cs, isNameChar c = false) := by
  rw [NotOpened, mem_head_iff_lookahead (by decide) (by decide)]

theorem stops_percent_iff {unit : String} :
    (unit = "" → Stops (· == '%') rest) ↔ (lookahead rest = some '%' → unit ≠ "") := by
  rw [← mem_head_iff_lookahead (by decide) (by decide)]
  constructor
  · intro h hpercent hunit
    exact absurd (h hunit _ hpercent) (by decide)
  · intro h hunit c hc
    refine beq_eq_false_iff_ne.2 ?_
    rintro rfl
    exact h hc hunit

theorem stops_isGap_iff : Stops isGap rest ↔ lookahead rest ≠ some ' ' := by
  cases rest with
  | nil => simp [Stops]
  | cons c rest =>
    rw [Text.stops_cons, lookahead_cons]
    rcases seenAs_cases c with ⟨hc, hseen⟩ | ⟨hc, hseen⟩ | ⟨hc, -, hseen⟩
    · simp [hseen, hc]
    · have hgap : isGap c = false := by
        rcases isQuote_cases hc with rfl | rfl <;> decide
      simp [hseen, hgap]
    · have hne : c ≠ ' ' := by
        rintro rfl
        exact absurd hc (by decide)
      simp [hseen, hc, hne]

end Lookahead

/-- A token ends where the rest begins. -/
theorem Lexes.fits {cs rest : List Char} {n : Node} (h : Lexes cs (.leaf n) rest) :
    n.Fits (lookahead rest) := by
  cases h with
  | space _ _ _ hrest => exact stops_isGap_iff.1 hrest
  | divider hmark => exact hmark
  | string _ _ hquote hcontent => exact ⟨hquote, hcontent⟩
  | @url name body rest hname hurl hbody =>
    refine ⟨hname, by simp, ?_⟩
    rw [if_pos hurl]
    exact ⟨body, rfl, hbody⟩
  | @urlUnclosed name body hname hurl hbody =>
    refine ⟨hname, fun _ => rfl, ?_⟩
    rw [if_pos hurl]
    exact ⟨body, rfl, hbody⟩
  | number hd hrest hopened hpercent =>
    exact ⟨hd, continuesWord_iff.1 hrest, notOpened_iff.1 hopened, stops_percent_iff.1 hpercent⟩
  | word htext hrest hopened =>
    exact ⟨htext, stops_isWordChar_iff.1 hrest, notOpened_iff.1 hopened⟩

/-- A node without nodes in it, the body of `url(` apart. -/
def Node.IsLeaf : Node → Prop
  | .call name _ _ => Text.sameIgnoringCase name "url" = true
  | _ => True

/-- A node that ends where the rest begins is read as a token. -/
theorem Node.Fits.lexes {n : Node} {rest : List Char} (h : n.Fits (lookahead rest))
    (hleaf : n.IsLeaf) : Lexes (n.chars ++ rest) (.leaf n) rest := by
  cases n with
  | word text =>
    obtain ⟨htext, hrest, hopened⟩ := h
    exact .word htext (stops_isWordChar_iff.2 hrest) (notOpened_iff.2 hopened)
  | number d =>
    obtain ⟨hd, hrest, hopened, hpercent⟩ := h
    exact .number hd (continuesWord_iff.2 hrest) (notOpened_iff.2 hopened)
      (stops_percent_iff.2 hpercent)
  | string quote content =>
    obtain ⟨hquote, hcontent⟩ := h
    simpa [Node.chars] using Lexes.string content rest hquote hcontent
  | call name args closed =>
    have hurl : Text.sameIgnoringCase name "url" = true := hleaf
    obtain ⟨hname, hclosed, hargs⟩ := h
    rw [if_pos hurl] at hargs
    obtain ⟨body, rfl, hbody⟩ := hargs
    cases closed with
    | true => simpa [Node.chars] using Lexes.url rest hname hurl hbody
    | false =>
      obtain rfl := lookahead_eq_none.1 (hclosed rfl)
      simpa [Node.chars] using Lexes.urlUnclosed hname hurl hbody
  | space => exact .space [' '] (by simp) (by simp [isGap]) (stops_isGap_iff.2 h)
  | divider mark => exact .divider h

/-! ### Reading and writing -/

/-- The end of a text, or of the arguments of a call. -/
def IsEnd (cs : List Char) : Prop :=
  cs = [] ∨ ')' ∈ cs.head?

/-- No token begins at the end of a text, nor at a closing parenthesis. -/
theorem IsEnd.readLexeme_eq {cs : List Char} (h : IsEnd cs) : readLexeme cs = none := by
  rcases h with rfl | h
  · rfl
  · cases cs with
    | nil => rfl
    | cons c cs =>
      obtain rfl : c = ')' := Option.mem_some.1 h
      have hname : isNameChar ')' = false := by decide
      have hword : isWordChar ')' = false := by decide
      simp [readLexeme, isGap, isDividerMark, isQuote, readOpening, hname, readNumberLexeme,
        readDimension, readNumber, readUnsigned, Char.isDigit, readWord, hword]

/-- The characters of a token. -/
def Lexeme.chars : Lexeme → List Char
  | .leaf n => n.chars
  | .opening name => name.toList ++ ['(']

/-- Nothing but the width of a gap is lost. -/
theorem Lexes.chars_cases {cs rest : List Char} {l : Lexeme} (h : Lexes cs l rest) :
    cs = l.chars ++ rest ∨
      l = .leaf .space ∧ ∃ gap, gap ≠ [] ∧ (∀ c ∈ gap, isGap c = true) ∧ cs = gap ++ rest := by
  cases h with
  | space _ hne hgap _ => exact .inr ⟨rfl, _, hne, hgap, rfl⟩
  | _ => exact .inl (by simp [Lexeme.chars, Node.chars, Dimension.chars])

/-- The first character of a token is seen as it was. -/
theorem Lexes.lookahead_eq {cs rest : List Char} {l : Lexeme} (h : Lexes cs l rest)
    (t : List Char) : lookahead cs = lookahead (l.chars ++ t) := by
  have hlt := h.length_lt
  rcases h.chars_cases with rfl | ⟨rfl, gap, hne, hgap, rfl⟩
  · cases hchars : l.chars with
    | nil => simp [hchars] at hlt
    | cons c cs => rfl
  · cases gap with
    | nil => exact absurd rfl hne
    | cons c gap =>
      rw [List.cons_append, lookahead_cons, seenAs, if_pos (hgap c (by simp))]
      rfl

/-- The characters that are not part of a gap. -/
def withoutGaps (cs : List Char) : List Char :=
  cs.filter (!isGap ·)

theorem withoutGaps_append (cs t : List Char) :
    withoutGaps (cs ++ t) = withoutGaps cs ++ withoutGaps t :=
  List.filter_append ..

/-- Reading a token loses nothing but gaps. -/
theorem Lexes.withoutGaps_eq {cs rest : List Char} {l : Lexeme} (h : Lexes cs l rest) :
    withoutGaps cs = withoutGaps (l.chars ++ rest) := by
  rcases h.chars_cases with rfl | ⟨rfl, gap, hne, hgap, rfl⟩
  · rfl
  · have hnone : withoutGaps gap = [] := by
      simpa [withoutGaps] using hgap
    rw [withoutGaps_append, withoutGaps_append, hnone]
    rfl

/-- Nodes that fit are read. -/
theorem Node.AllFit.reads {ns : List Node} {rest : List Char} (h : AllFit (lookahead rest) ns)
    (hrest : IsEnd rest) : Reads (charsAll ns ++ rest) ns rest := by
  induction ns using listInduction generalizing rest with
  | nil => exact .done hrest.readLexeme_eq
  | cons n ns hargs ih =>
    obtain ⟨hn, hns⟩ := h
    rw [← lookahead_append] at hn
    rw [charsAll_cons, List.append_assoc]
    by_cases hleaf : n.IsLeaf
    · exact .leaf (hn.lexes hleaf) (ih hns hrest)
    cases n with
    | call name args closed =>
      have hurl : Text.sameIgnoringCase name "url" = false := by simpa [IsLeaf] using hleaf
      obtain ⟨hname, hclosed, hfit⟩ := hn
      rw [if_neg (by simp [hurl])] at hfit
      -- The arguments go on to the parenthesis, or else to the end of the text.
      generalize hafter : charsAll ns ++ rest = after at hclosed
      cases closed with
      | true =>
        have hreads : Reads (charsAll args ++ ')' :: after) args (')' :: after) :=
          hargs name args true rfl hfit (.inr rfl)
        have hcall := Reads.call (.opening hname hurl) hreads (hafter ▸ ih hns hrest)
        simpa [chars, readClosing, hafter] using hcall
      | false =>
        obtain rfl := lookahead_eq_none.1 (hclosed rfl)
        have hreads : Reads (charsAll args ++ []) args [] :=
          hargs name args false rfl hfit (.inl rfl)
        have hcall := Reads.call (.opening hname hurl) hreads (hafter ▸ ih hns hrest)
        simpa [chars, readClosing, hafter] using hcall
    | _ => exact absurd trivial hleaf

/-- A call is closed by a parenthesis, or else nothing is read. -/
theorem readClosing_cases (u : List Char) :
    (∃ t, u = ')' :: t ∧ readClosing u = (true, t)) ∨
      (¬ ')' ∈ u.head? ∧ readClosing u = (false, u)) := by
  unfold readClosing
  split
  · exact .inl ⟨_, rfl, rfl⟩
  · next hne =>
    refine .inr ⟨?_, rfl⟩
    intro hhead
    cases u with
    | nil => cases hhead
    | cons c u => exact hne u (by rw [Option.mem_some.1 hhead])

/-- A call without its closing parenthesis goes on to the end. -/
theorem Reads.eq_of_unclosed {cs u rest : List Char} {args ns : List Node}
    (hargs : Reads cs args u) (hns : Reads u ns rest) : ns = [] ∧ rest = u :=
  hns.unique (.done hargs.readLexeme_rest)

/-- The nodes that are read fit, and the first one is seen as it was. -/
theorem Reads.allFit {cs rest : List Char} {ns : List Node} (h : Reads cs ns rest)
    (hrest : IsEnd rest) :
    Node.AllFit (lookahead rest) ns ∧ lookahead cs = lookahead (Node.charsAll ns ++ rest) := by
  induction h with
  | done => exact ⟨trivial, rfl⟩
  | @leaf cs t rest n ns h hns ih =>
    obtain ⟨hfit, hsees⟩ := ih hrest
    have hn := h.fits
    rw [hsees, lookahead_append] at hn
    refine ⟨⟨hn, hfit⟩, ?_⟩
    rw [h.lookahead_eq (Node.charsAll ns ++ rest), Node.charsAll_cons, List.append_assoc]
    rfl
  | @call cs t u rest name args ns h hargs hns ihargs ihns =>
    obtain ⟨hfit, hsees⟩ := ihns hrest
    obtain ⟨hname, hurl⟩ := h.opening_name
    refine ⟨⟨⟨hname, ?_, ?_⟩, hfit⟩, ?_⟩
    · -- If the call is not closed, reading has stopped at the end of the text.
      intro hunclosed
      rcases readClosing_cases u with ⟨_, _, hclosing⟩ | ⟨hne, hclosing⟩
      · simp [hclosing] at hunclosed
      · obtain ⟨rfl, rfl⟩ := hargs.eq_of_unclosed (hclosing ▸ hns)
        rw [hrest.resolve_right hne]
        rfl
    · rw [if_neg (by simp [hurl])]
      rcases readClosing_cases u with ⟨t, rfl, hclosing⟩ | ⟨hne, hclosing⟩
      · rw [hclosing]
        exact (ihargs (.inr rfl)).1
      · obtain ⟨rfl, rfl⟩ := hargs.eq_of_unclosed (hclosing ▸ hns)
        obtain rfl := hrest.resolve_right hne
        exact (ihargs (.inl rfl)).1
    · have hchars : Node.charsAll (.call name args (readClosing u).1 :: ns) ++ rest =
          Lexeme.chars (.opening name) ++ (Node.charsAll args ++
            ((if (readClosing u).1 then [')'] else []) ++ (Node.charsAll ns ++ rest))) := by
        simp [Lexeme.chars, Node.chars]
      rw [hchars]
      exact h.lookahead_eq _

/-- Reading a row of nodes loses nothing but gaps. -/
theorem Reads.withoutGaps_eq {cs rest : List Char} {ns : List Node} (h : Reads cs ns rest) :
    withoutGaps cs = withoutGaps (Node.charsAll ns ++ rest) := by
  induction h with
  | done => rfl
  | @leaf cs t rest n ns h _ ih =>
    rw [h.withoutGaps_eq, Node.charsAll_cons, List.append_assoc, withoutGaps_append,
      withoutGaps_append n.chars, ih]
    rfl
  | @call cs t u rest name args ns h _ _ ihargs ihns =>
    have hu : u = (if (readClosing u).1 then [')'] else []) ++ (readClosing u).2 := by
      rcases readClosing_cases u with ⟨t, rfl, hclosing⟩ | ⟨_, hclosing⟩ <;> simp [hclosing]
    calc withoutGaps cs
        = withoutGaps (name.toList ++ ['(']) ++ withoutGaps t := by
          rw [h.withoutGaps_eq, withoutGaps_append, Lexeme.chars]
      _ = withoutGaps (name.toList ++ ['(']) ++ (withoutGaps (Node.charsAll args) ++
            (withoutGaps (if (readClosing u).1 then [')'] else []) ++
              withoutGaps (readClosing u).2)) := by
          rw [ihargs, withoutGaps_append (Node.charsAll args),
            ← withoutGaps_append _ (readClosing u).2, ← hu]
      _ = withoutGaps (Node.charsAll (.call name args (readClosing u).1 :: ns) ++ rest) := by
          rw [ihns]
          simp only [← withoutGaps_append]
          simp [Node.chars]

/-- The text of nodes is read as these nodes if and only if they are tokens side by side. -/
theorem parseValue_render_iff {ns : List Node} :
    parseValue (Node.render ns) = .ok ns ↔ Node.AllFit (lookahead []) ns := by
  rw [parseValue_eq_ok, Node.toList_render]
  constructor
  · intro h
    exact (h.allFit (.inl rfl)).1
  · intro h
    simpa using h.reads (.inl rfl)

/-- A text that can be read is, up to the width of its gaps, the text of its nodes, and that text
is read as the same nodes. -/
theorem parseValue_render {s : String} {ns : List Node} (h : parseValue s = .ok ns) :
    parseValue (Node.render ns) = .ok ns ∧
      withoutGaps (Node.render ns).toList = withoutGaps s.toList := by
  rw [parseValue_eq_ok] at h ⊢
  rw [Node.toList_render]
  constructor
  · have hreads := (h.allFit (.inl rfl)).1.reads (.inl rfl)
    rwa [List.append_nil] at hreads
  · rw [h.withoutGaps_eq, List.append_nil]

/-- The body of an address is taken as it stands, a number runs on into a word, and the last call is
not closed. -/
theorem parseValue_render_unclosed :
    let s := "\t1px-a  1.%,URL( ')calc( '\\''"
    let ns : List Node :=
      [.space, .word "1px-a", .space, .number ⟨"1.", "%"⟩, .divider ',',
        .call "URL" [.word " '"] true, .call "calc" [.space, .string '\'' "\\'"] false]
    parseValue s = .ok ns ∧ parseValue (Node.render ns) = .ok ns ∧
      withoutGaps (Node.render ns).toList = withoutGaps s.toList := by
  intro s ns
  have h : parseValue s = .ok ns := by cbv
  exact ⟨h, parseValue_render h⟩

end AtomicCss
