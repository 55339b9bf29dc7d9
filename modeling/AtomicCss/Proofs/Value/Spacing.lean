import AtomicCss.Proofs.Value.RoundTrip
import AtomicCss.Value.Normal

/-!
# Gaps that are needed

Collapsing keeps one gap between two nodes that are not separators. What is left has no other gaps,
so collapsing again changes nothing; the nodes are still tokens side by side, for one that stood
before a gap now stands before a gap, a separator or the end; and two items are neighbours if and
only if they were neighbours before.

* `Node.Spaced`: gaps stand only between two items.
* `Node.spaced_collapse`, `Node.Spaced.collapse_eq`: this holds after collapsing, and collapsing
  leaves such nodes as they are.
* `Node.AllFit.collapse_of_ends`: the nodes that remain are tokens.
* `Node.anyRelated_collapse`: the same neighbours.
-/

namespace AtomicCss.Node

open Text (Stops)

/-! ### Items -/

/-- Whether the node is neither a gap nor a separator. -/
def isItem : Node → Bool
  | .space | .divider _ => false
  | _ => true

/-- Whether the first node is an item. -/
def startsWithItem (ns : List Node) : Bool :=
  ns.head?.any isItem

/-- In front of an item a pending space is kept, if there is something to join. -/
theorem collapse_item {n : Node} (h : n.isItem = true) (joins pending : Bool) (ns : List Node) :
    collapse joins pending (n :: ns) =
      (if joins && pending then [.space] else []) ++ collapseNode n :: collapse true false ns := by
  cases n with
  | space | divider mark => cases h
  | _ => rfl

theorem isItem_collapseNode (n : Node) : (collapseNode n).isItem = n.isItem := by
  cases n <;> rfl

mutual

/-- In the arguments of a call there are only gaps that are needed. -/
def SpacedNode : Node → Prop
  | .call _ args _ => Spaced false args
  | _ => True

/-- There are only gaps that are needed; `joins` says whether there is an item before. -/
def Spaced (joins : Bool) : List Node → Prop
  | [] => True
  | .space :: ns => joins = true ∧ startsWithItem ns = true ∧ Spaced false ns
  | .divider _ :: ns => Spaced false ns
  | n :: ns => SpacedNode n ∧ Spaced true ns

end

/-- An item may stand anywhere, and what follows it may begin with a space. -/
theorem spaced_item {n : Node} (h : n.isItem = true) {joins : Bool} {ns : List Node} :
    Spaced joins (n :: ns) ↔ SpacedNode n ∧ Spaced true ns := by
  cases n with
  | space | divider mark => cases h
  | _ => exact Iff.rfl

/-- After collapsing there are only gaps that are needed. -/
theorem spaced_collapse (ns : List Node) (joins pending : Bool) :
    Spaced joins (collapse joins pending ns) := by
  induction ns using listInduction generalizing joins pending with
  | nil => trivial
  | cons n ns hargs ih =>
    by_cases hitem : n.isItem = true
    · have hnode : SpacedNode (collapseNode n) := by
        cases n with
        | call name args closed => exact hargs name args closed rfl false false
        | _ => trivial
      have hrest : ∀ joins, Spaced joins (collapseNode n :: collapse true false ns) := fun joins =>
        (spaced_item ((isItem_collapseNode n).trans hitem)).2 ⟨hnode, ih true false⟩
      rw [collapse_item hitem]
      by_cases hspace : (joins && pending) = true
      · rw [if_pos hspace]
        refine ⟨(Bool.and_eq_true_iff.1 hspace).1, ?_, hrest false⟩
        simp [startsWithItem, isItem_collapseNode, hitem]
      · rw [if_neg hspace]
        exact hrest joins
    · cases n with
      | space => exact ih joins true
      | divider mark => exact ih false false
      | _ => exact absurd rfl hitem

/-- Where there are only gaps that are needed, collapsing changes nothing. -/
theorem Spaced.collapse_eq {ns : List Node} {joins : Bool} (h : Spaced joins ns) :
    collapse joins false ns = ns := by
  induction ns using listInduction generalizing joins with
  | nil => rfl
  | cons n ns hargs ih =>
    by_cases hitem : n.isItem = true
    · obtain ⟨hnode, hns⟩ := (spaced_item hitem).1 h
      have hsame : collapseNode n = n := by
        cases n with
        | call name args closed => rw [collapseNode, hargs name args closed rfl hnode]
        | _ => rfl
      rw [collapse_item hitem, hsame, ih hns, Bool.and_false]
      rfl
    · cases n with
      | space =>
        obtain ⟨rfl, hstarts, hns⟩ := h
        -- The gap is written in front of the item that follows.
        have hsame := ih hns
        cases ns with
        | nil => cases hstarts
        | cons m ns =>
          have hm : m.isItem = true := hstarts
          rw [collapse_item hm] at hsame
          rw [collapse, collapse_item hm]
          simpa using hsame
      | divider mark =>
        have hns : Spaced false ns := h
        rw [collapse, ih hns]
      | _ => exact absurd rfl hitem

/-! ### Tokens -/

theorem lookahead_append_of_ne_nil {cs : List Char} (h : cs ≠ []) (t : List Char) :
    lookahead (cs ++ t) = lookahead cs := by
  cases cs with
  | nil => exact absurd rfl h
  | cons c cs => rfl

theorem Fits.chars_ne_nil {n : Node} {next : Option Char} (h : n.Fits next) : n.chars ≠ [] := by
  cases n with
  | word text => exact h.1.ne_nil
  | number d => exact h.1.chars_ne_nil
  | string quote content => simp [chars]
  | call name args closed => simp [chars]
  | space => simp [chars]
  | divider mark => simp [chars]

/-- What ends every token: a gap, a separator, a closing parenthesis, a quote or nothing. -/
def Ends (next : Option Char) : Prop :=
  ∀ c ∈ next, isWordChar c = false ∧ c ≠ '('

theorem ends_none : Ends none := by
  rintro c ⟨⟩

theorem ends_closing : Ends (some ')') := by
  intro c hc
  obtain rfl : ')' = c := Option.mem_some.1 hc
  decide

theorem ends_divider {mark : Char} (h : isDividerMark mark = true) : Ends (some (seenAs mark)) := by
  have hcases : mark = ',' ∨ mark = '/' := by simpa [isDividerMark] using h
  intro c hc
  obtain rfl : seenAs mark = c := Option.mem_some.1 hc
  rcases hcases with rfl | rfl <;> decide

theorem ends_quote {quote : Char} (h : isQuote quote = true) : Ends (some (seenAs quote)) := by
  intro c hc
  obtain rfl : seenAs quote = c := Option.mem_some.1 hc
  rcases isQuote_cases h with rfl | rfl <;> decide

theorem ends_space : Ends (some ' ') := by
  intro c hc
  obtain rfl : ' ' = c := Option.mem_some.1 hc
  decide

theorem continuesWord_of_not_isWordChar {c : Char} (h : isWordChar c = false) :
    continuesWord [c] = false := by
  have hname : isNameChar c = false := by
    cases hname : isNameChar c with
    | false => rfl
    | true => rw [isWordChar_of_isNameChar hname] at h; cases h
  have hpoint : c ≠ '.' := by
    rintro rfl
    exact absurd h (by decide)
  simp [continuesWord, hname, hpoint]

/-- A word that is a token ends where every token does. -/
theorem fits_word_of_ends {text : String} {next : Option Char} (htext : IsWord text.toList)
    (h : Ends next) : Fits next (.word text) :=
  ⟨htext, fun c hc => (h c hc).1, fun hopen => absurd rfl (h _ hopen).2⟩

/-- A number fits in front of whatever ends any token. -/
theorem fits_number_of_ends {d : Dimension} {next : Option Char} (hd : d.IsWritten)
    (h : Ends next) : Fits next (.number d) := by
  refine ⟨hd, fun c hc => continuesWord_of_not_isWordChar (h c hc).1,
    fun hopen => absurd rfl (h _ hopen).2, ?_⟩
  intro hpercent
  exact absurd (h _ hpercent).1 (by decide)

/-- The first character of an item. -/
theorem Fits.exists_head {n : Node} {next : Option Char} (h : n.Fits next)
    (hitem : n.isItem = true) :
    ∃ c cs, n.chars = c :: cs ∧ (isWordChar c = true ∨ isQuote c = true ∨ c = '(') := by
  obtain ⟨c, cs, hchars⟩ := List.exists_cons_of_ne_nil h.chars_ne_nil
  refine ⟨c, cs, hchars, ?_⟩
  cases n with
  | word text => exact .inl (h.1.chars c (by simp [show text.toList = c :: cs from hchars]))
  | number d => exact .inl (h.1.wordChars c (by simp [show d.chars = c :: cs from hchars]))
  | string quote content =>
    obtain ⟨rfl, -⟩ := List.cons.inj hchars
    exact .inr (.inl h.1)
  | call name args closed =>
    cases hname : name.toList with
    | nil =>
      rw [chars, hname] at hchars
      obtain ⟨rfl, -⟩ := List.cons.inj hchars
      exact .inr (.inr rfl)
    | cons d ds =>
      rw [chars, hname] at hchars
      obtain ⟨rfl, -⟩ := List.cons.inj hchars
      exact .inl (isWordChar_of_isNameChar (h.1 d (by simp [hname])))
  | space => cases hitem
  | divider mark => cases hitem

/-- What is no gap begins with no blank. -/
theorem Fits.exists_head_not_blank {n : Node} {next : Option Char} (h : n.Fits next)
    (hn : n.isSpace = false) : ∃ c cs, n.chars = c :: cs ∧ Text.isBlank c = false := by
  by_cases hitem : n.isItem = true
  · obtain ⟨c, cs, hchars, hc⟩ := h.exists_head hitem
    refine ⟨c, cs, hchars, ?_⟩
    rcases hc with hc | hc | rfl
    · simp_all [isWordChar]
    · rcases isQuote_cases hc with rfl | rfl <;> decide
    · decide
  · cases n with
    | space => cases hn
    | divider mark =>
      refine ⟨mark, [], rfl, ?_⟩
      have hcases : mark = ',' ∨ mark = '/' := by simpa [Fits, isDividerMark] using h
      rcases hcases with rfl | rfl <;> decide
    | _ => exact absurd rfl hitem

/-- The first character of an item belongs to no gap. -/
theorem Fits.lookahead_ne_space {n : Node} {next : Option Char} (h : n.Fits next)
    (hitem : n.isItem = true) (ns : List Node) (next' : Option Char) :
    (lookahead (charsAll (n :: ns))).or next' ≠ some ' ' := by
  obtain ⟨c, cs, hchars, hc⟩ := h.exists_head hitem
  have hgap : isGap c = false := by
    cases hgap : isGap c with
    | false => rfl
    | true => rcases isGap_cases hgap with rfl | rfl | rfl | rfl <;> exact absurd hc (by decide)
  have hne : lookahead (c :: (cs ++ charsAll ns)) ≠ some ' ' :=
    stops_isGap_iff.1 (Text.stops_cons.2 hgap)
  rw [charsAll_cons, hchars, List.cons_append]
  exact hne

/-- A call begins with its name and a parenthesis. -/
theorem lookahead_call (name : String) (args : List Node) (closed : Bool) (ns : List Node) :
    lookahead (charsAll (.call name args closed :: ns)) = lookahead (name.toList ++ ['(']) := by
  have hne : name.toList ++ ['('] ≠ [] := by simp
  rw [← lookahead_append_of_ne_nil hne
    (charsAll args ++ ((if closed then [')'] else []) ++ charsAll ns))]
  simp [chars]

/-- Collapsing within a node leaves its first character. -/
theorem lookahead_collapseNode {n : Node} {next : Option Char} (h : n.Fits next)
    (ns ms : List Node) :
    lookahead (charsAll (collapseNode n :: ns)) = lookahead (charsAll (n :: ms)) := by
  cases n with
  | call name args closed => rw [collapseNode, lookahead_call, lookahead_call]
  | _ =>
    rw [charsAll_cons, charsAll_cons, lookahead_append_of_ne_nil h.chars_ne_nil,
      ← lookahead_append_of_ne_nil h.chars_ne_nil (charsAll ns)]
    rfl

/-- Behind a gap there is a gap again, a separator or the end. -/
theorem ends_collapse_pending {next : Option Char} (hnext : Ends next) {ns : List Node}
    (h : AllFit next ns) : Ends ((lookahead (charsAll (collapse true true ns))).or next) := by
  induction ns with
  | nil => exact hnext
  | cons n ns ih =>
    by_cases hitem : n.isItem = true
    · rw [collapse_item hitem]
      intro c hc
      obtain rfl : c = ' ' := (Option.mem_some.1 hc).symm
      decide
    · cases n with
      | space => exact ih h.2
      | divider mark => exact ends_divider h.1
      | _ => exact absurd rfl hitem

/-- What an item sees behind it changes only from a gap to something that ends it too. -/
theorem lookahead_collapse {next : Option Char} (hnext : Ends next) {ns : List Node}
    (h : AllFit next ns) :
    (lookahead (charsAll (collapse true false ns))).or next = (lookahead (charsAll ns)).or next ∨
      ((lookahead (charsAll ns)).or next = some ' ' ∧
        Ends ((lookahead (charsAll (collapse true false ns))).or next)) := by
  cases ns with
  | nil => exact .inl rfl
  | cons n ns =>
    by_cases hitem : n.isItem = true
    · left
      rw [collapse_item hitem, Bool.and_false]
      exact congrArg (Option.or · next) (lookahead_collapseNode h.1 _ _)
    · cases n with
      | space => exact .inr ⟨rfl, ends_collapse_pending hnext h.2⟩
      | divider mark => exact .inl rfl
      | _ => exact absurd rfl hitem

/-- A token stays one when the gap behind it gives way to something that ends it too. -/
theorem Fits.collapseNode_of_lookahead {n : Node} {next next' : Option Char} (h : n.Fits next)
    (hnext : next' = next ∨ next = some ' ' ∧ Ends next')
    (hargs : ∀ name args closed, n = .call name args closed → ∀ next, Ends next →
      AllFit next args → AllFit next (collapse false false args)) :
    (collapseNode n).Fits next' := by
  cases n with
  | word text =>
    rcases hnext with rfl | ⟨-, hends⟩
    · exact h
    · exact fits_word_of_ends h.1 hends
  | number d =>
    rcases hnext with rfl | ⟨-, hends⟩
    · exact h
    · exact fits_number_of_ends h.1 hends
  | string quote content => exact h
  | call name args closed =>
    obtain ⟨hname, hclosed, hbody⟩ := h
    -- A call that is not closed is the last of all, and no gap can follow it.
    refine ⟨hname, fun hopen => ?_, ?_⟩
    · rcases hnext with rfl | ⟨hspace, -⟩
      · exact hclosed hopen
      · rw [hclosed hopen] at hspace
        cases hspace
    · by_cases hurl : Text.sameIgnoringCase name "url" = true
      · rw [if_pos hurl] at hbody ⊢
        obtain ⟨body, rfl, hbody⟩ := hbody
        exact ⟨body, rfl, hbody⟩
      · rw [if_neg hurl] at hbody ⊢
        refine hargs name args closed rfl _ ?_ hbody
        cases closed with
        | true => exact ends_closing
        | false => exact ends_none
  | space =>
    rcases hnext with rfl | ⟨hspace, -⟩
    · exact h
    · exact absurd hspace h
  | divider mark => exact h

/-- After collapsing, the nodes are still tokens side by side. -/
theorem AllFit.collapse_of_ends {ns : List Node} {next : Option Char} (h : AllFit next ns)
    (hnext : Ends next) (joins pending : Bool) : AllFit next (collapse joins pending ns) := by
  induction ns using listInduction generalizing next joins pending with
  | nil => trivial
  | cons n ns hargs ih =>
    obtain ⟨hn, hns⟩ := h
    by_cases hitem : n.isItem = true
    · have hrest : AllFit next (collapseNode n :: collapse true false ns) := by
        refine ⟨hn.collapseNode_of_lookahead (lookahead_collapse hnext hns) ?_, ih hns hnext _ _⟩
        rintro name args closed rfl next hends hfit
        exact hargs name args closed rfl hfit hends false false
      rw [collapse_item hitem]
      split
      · refine ⟨?_, hrest⟩
        show (lookahead (charsAll (collapseNode n :: collapse true false ns))).or next ≠ some ' '
        rw [lookahead_collapseNode hn _ ns]
        exact hn.lookahead_ne_space hitem ns next
      · exact hrest
    · cases n with
      | space => exact ih hns hnext _ _
      | divider mark => exact ⟨hn, ih hns hnext _ _⟩
      | _ => exact absurd rfl hitem

/-- Collapsing closes no call and opens none. -/
theorem anyUnclosed_collapse (ns : List Node) (joins pending : Bool) :
    anyUnclosed (collapse joins pending ns) = anyUnclosed ns := by
  induction ns using listInduction generalizing joins pending with
  | nil => rfl
  | cons n ns hargs ih =>
    by_cases hitem : n.isItem = true
    · have hnode : (collapseNode n).unclosed = n.unclosed := by
        cases n with
        | call name args closed => rw [collapseNode, unclosed, unclosed, hargs name args closed rfl]
        | _ => rfl
      rw [collapse_item hitem]
      split <;> simp [anyUnclosed, unclosed, hnode, ih]
    · cases n with
      | space => exact ih _ _
      | divider mark => exact ih _ _
      | _ => exact absurd rfl hitem

/-! ### Neighbours -/

mutual

/-- Whether in the arguments of a call there are neighbours as `R` says. -/
def relatedIn (R : Bool → Node → Node → Bool) (inMath : Bool) : Node → Bool
  | .call name args _ => anyRelated R (inMath || mathCalls.contains (Text.asciiLower name)) args
  | _ => false

/-- Whether at any depth a node and the one right behind it are as `R` says. The first argument of
`R` says whether they are arguments of a calculation. -/
def anyRelated (R : Bool → Node → Node → Bool) (inMath : Bool) : List Node → Bool
  | [] => false
  | n :: ns => ns.head?.any (R inMath n) || relatedIn R inMath n || anyRelated R inMath ns

end

/-- A relation between items that does not look at the arguments of calls. -/
structure OfItems (R : Bool → Node → Node → Bool) : Prop where
  left : ∀ {inMath n m}, R inMath n m = true → n.isItem = true
  right : ∀ {inMath n m}, R inMath n m = true → m.isItem = true
  collapseNode : ∀ inMath n m, R inMath (collapseNode n) (collapseNode m) = R inMath n m

/-- Spaces and dividers are related to nothing. -/
theorem OfItems.anyRelated_cons {R : Bool → Node → Node → Bool} (hR : OfItems R) {n : Node}
    (hn : n.isItem = false) (inMath : Bool) (ns : List Node) :
    anyRelated R inMath (n :: ns) = anyRelated R inMath ns := by
  have hleft : R inMath n = fun _ => false := by
    funext m
    cases h : R inMath n m with
    | false => rfl
    | true => rw [hR.left h] at hn; cases hn
  have hin : relatedIn R inMath n = false := by
    cases n with
    | call => cases hn
    | _ => rfl
  cases ns <;> simp [anyRelated, hleft, hin]

/-- Behind a gap no item comes first, for the gap is kept in front of it. -/
theorem not_startsWithItem_collapse (ns : List Node) :
    startsWithItem (collapse true true ns) = false := by
  induction ns with
  | nil => rfl
  | cons n ns ih =>
    by_cases hitem : n.isItem = true
    · rw [collapse_item hitem]
      rfl
    · cases n with
      | space => exact ih
      | divider mark => rfl
      | _ => exact absurd rfl hitem

/-- An item comes first after collapsing if it came first before. -/
theorem head_collapse {p : Node → Bool} (hp : ∀ n, p n = true → n.isItem = true)
    (ns : List Node) :
    (collapse true false ns).head?.any p = ns.head?.any (p ∘ AtomicCss.collapseNode) := by
  have hnot : ∀ n : Node, n.isItem = false → p n = false := by
    intro n hn
    cases hpn : p n with
    | false => rfl
    | true => rw [hp n hpn] at hn; cases hn
  cases ns with
  | nil => rfl
  | cons n ns =>
    by_cases hitem : n.isItem = true
    · rw [collapse_item hitem]
      rfl
    · cases n with
      | space =>
        -- The gap stays in front of an item, so that no item comes first.
        have hstarts := not_startsWithItem_collapse ns
        rw [collapse]
        cases hhead : (collapse true true ns).head? with
        | none => exact (hnot .space rfl).symm
        | some m =>
          rw [startsWithItem, hhead] at hstarts
          exact (hnot m hstarts).trans (hnot .space rfl).symm
      | divider mark => rfl
      | _ => exact absurd rfl hitem

/-- Collapsing neither makes neighbours nor parts them. -/
theorem anyRelated_collapse {R : Bool → Node → Node → Bool} (hR : OfItems R) (ns : List Node)
    (inMath joins pending : Bool) :
    anyRelated R inMath (collapse joins pending ns) = anyRelated R inMath ns := by
  induction ns using listInduction generalizing inMath joins pending with
  | nil => rfl
  | cons n ns hargs ih =>
    by_cases hitem : n.isItem = true
    · have hhead : (collapse true false ns).head?.any (R inMath (AtomicCss.collapseNode n)) =
          ns.head?.any (R inMath n) := by
        rw [head_collapse fun _ => hR.right]
        exact congrArg (ns.head?.any ·) (funext fun m => hR.collapseNode inMath n m)
      have hin : relatedIn R inMath (AtomicCss.collapseNode n) = relatedIn R inMath n := by
        cases n with
        | call name args closed => exact hargs name args closed rfl _ false false
        | _ => rfl
      have hrest : anyRelated R inMath (AtomicCss.collapseNode n :: collapse true false ns) =
          anyRelated R inMath (n :: ns) := by
        rw [anyRelated, anyRelated, hhead, hin, ih]
      rw [collapse_item hitem]
      -- The space that may be put in front of the item is related to nothing.
      split
      · exact (hR.anyRelated_cons rfl _ _).trans hrest
      · exact hrest
    · cases n with
      | space => exact (ih ..).trans (hR.anyRelated_cons rfl _ _).symm
      | divider mark =>
        rw [collapse, hR.anyRelated_cons rfl, hR.anyRelated_cons rfl, ih]
      | _ => exact absurd rfl hitem

end AtomicCss.Node
