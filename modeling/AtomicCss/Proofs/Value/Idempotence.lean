import AtomicCss.Proofs.Value.Rejoin

/-!
# Canonical values are fixed

A value in canonical form is read, brought into canonical form and written again. Nothing changes,
unless two numbers stand side by side in it; then the second may lose its plus sign or a zero and
run into the first. If there were no such numbers in the tree of the raw value, there are some now
only where a zero lost its unit before a percent sign with a number that has a plus sign.

* `Node.Tame`: nodes with collapsed gaps and without numbers side by side.
* `Node.anyHidden`: whether there is such a zero.
* `Node.exists_settles`: the text of tame nodes in canonical form is read as nodes that are in
  canonical form, or if there is such a zero as nodes with a plus sign.
* `Node.count_plus_rewriteNode`: a plus sign of a number gets lost.
* `normalNodes_eq_map`: the nodes of a canonical value are rewritten one by one.
* `normalValue_normalValue`: canonical values are fixed if and only if there is no such zero.
-/

namespace AtomicCss

namespace Node

variable {hidden dash inMath joins : Bool} {next : Option Char}

/-! ### Nodes in canonical form -/

/-- Items that are read may stand before nodes that are. -/
theorem ReadAs.settled_append {hidden' : Bool} {cs : List Char} {ns ms : List Node}
    (h : ReadAs hidden dash inMath ((lookahead (charsAll ms)).or next) cs ns)
    (hms : Settled hidden' dash inMath true next ms) :
    Settled (hidden || hidden') dash inMath joins next (ns ++ ms) where
  fits := h.fits.append hms.fits
  spaced := by
    have hne : ns.isEmpty = false := by simp [h.ne_nil]
    exact h.items.spaced_append (by simpa [hne] using hms.spaced)
  tidy hshown := by
    obtain ⟨hns, hrest⟩ := Bool.or_eq_false_iff.1 hshown
    exact List.forall_mem_append.2 ⟨h.tidy hns, hms.tidy hrest⟩
  plus hhidden := by
    rw [anyNumber_append]
    rcases Bool.or_eq_true_iff.1 hhidden with hns | hrest
    · rw [h.plus hns, Bool.true_or]
    · rw [hms.plus hrest, Bool.or_true]

/-- The text of `ns` in canonical form is read as `ms`. -/
structure Settles (hidden dash inMath joins : Bool) (next : Option Char) (ns ms : List Node) :
    Prop where
  chars : charsAll ms = charsAll (ns.map (rewriteNode normalDimension dash inMath))
  settled : Settled hidden dash inMath joins next ms
  startsWithItem : startsWithItem ns = true → startsWithItem ms = true
  ne_nil : ns ≠ [] → ms ≠ []

/-- A few nodes that are read as items are put in front. -/
theorem ReadAs.settles_append (pre : List Node) {hidden' : Bool} {cs : List Char}
    {ns ms ms' : List Node}
    (h : ReadAs hidden dash inMath ((lookahead (charsAll ms)).or next) cs ms')
    (hcs : charsAll (pre.map (rewriteNode normalDimension dash inMath)) = cs)
    (hns : Settles hidden' dash inMath true next ns ms) :
    Settles (hidden || hidden') dash inMath joins next (pre ++ ns) (ms' ++ ms) where
  chars := by rw [charsAll_append, h.chars, ← hcs, hns.chars, List.map_append, charsAll_append]
  settled := h.settled_append hns.settled
  startsWithItem _ := by
    rw [h.items.startsWithItem_append]
    simp [h.ne_nil]
  ne_nil _ := by simp [h.ne_nil]

/-- A space in front of an item stays. -/
theorem Settles.cons_space {ns ms : List Node} (h : Settles hidden dash inMath false next ns ms)
    (hns : Node.startsWithItem ns = true) :
    Settles hidden dash inMath true next (.space :: ns) (.space :: ms) where
  chars := by simp [h.chars]
  settled := by
    have hms := h.startsWithItem hns
    refine ⟨⟨?_, h.settled.fits⟩, ⟨rfl, hms, h.settled.spaced⟩, fun hshown => ?_, h.settled.plus⟩
    · cases ms with
      | nil => cases hms
      | cons m ms => exact h.settled.fits.1.lookahead_ne_space hms ms next
    · exact List.forall_mem_cons.2 ⟨⟨rewriteNode_space .., rfl⟩, h.settled.tidy hshown⟩
  startsWithItem hspace := by cases hspace
  ne_nil _ := by simp

theorem Settles.cons_divider {ns ms : List Node} (h : Settles hidden dash inMath false next ns ms)
    {mark : Char} (hmark : isDividerMark mark = true) :
    Settles hidden dash inMath joins next (.divider mark :: ns) (.divider mark :: ms) where
  chars := by simp [h.chars]
  settled := by
    refine ⟨⟨hmark, h.settled.fits⟩, h.settled.spaced, fun hshown => ?_, h.settled.plus⟩
    exact List.forall_mem_cons.2 ⟨⟨rewriteNode_divider .., rfl⟩, h.settled.tidy hshown⟩
  startsWithItem hdivider := by cases hdivider
  ne_nil _ := by simp

/-- What ends a word is seen behind it also when what follows is in canonical form. -/
theorem lookahead_tidy {ns : List Node} (h : AllFit next ns)
    (hnext : ∀ c ∈ (lookahead (charsAll ns)).or next, isWordChar c = false) :
    lookahead (charsAll (ns.map (rewriteNode normalDimension dash inMath))) =
      lookahead (charsAll ns) := by
  have hshows : Shows normalDimension := fun _ _ => Dimension.isShown_normalDimension _
  exact (seenAlike_rewriteNode hshows dash inMath h).eq_of_not_isWordChar fun c hc =>
    hnext c (Option.or_eq_some_iff.2 (.inl hc))

/-! ### Numbers that stay apart -/

/-- Whether both nodes are numbers. -/
def bothNumbers (_inMath : Bool) : Node → Node → Bool
  | .number _, .number _ => true
  | _, _ => false

/-- Nodes whose gaps are collapsed and whose numbers are apart. -/
structure Tame (inMath joins : Bool) (next : Option Char) (ns : List Node) : Prop where
  fits : AllFit next ns
  ends : Ends next
  closed : anyUnclosed ns = false
  spaced : Spaced joins ns
  apart : anyRelated bothNumbers inMath ns = false

theorem Tame.of_cons {n : Node} {ns : List Node} (h : Tame inMath joins next (n :: ns))
    {joins' : Bool} (hspaced : Spaced joins' ns) : Tame inMath joins' next ns := by
  obtain ⟨hfits, hends, hclosed, -, hapart⟩ := h
  simp only [anyRelated, Bool.or_eq_false_iff] at hapart
  exact ⟨hfits.2, hends, (Bool.or_eq_false_iff.1 hclosed).2, hspaced, hapart.2⟩

theorem Tame.of_cons_item {n : Node} {ns : List Node} (h : Tame inMath joins next (n :: ns))
    (hitem : n.isItem = true) : Tame inMath true next ns :=
  h.of_cons ((spaced_item hitem).1 h.spaced).2

theorem Tame.closed_call {name : String} {args ns : List Node} {closed : Bool}
    (h : Tame inMath joins next (.call name args closed :: ns)) : closed = true := by
  have hclosed := (Bool.or_eq_false_iff.1 h.closed).1
  cases closed with
  | true => rfl
  | false => cases hclosed

/-- The arguments of a call. -/
theorem Tame.args {name : String} {args ns : List Node}
    (h : Tame inMath joins next (.call name args true :: ns))
    (hurl : Text.sameIgnoringCase name "url" = false) :
    Tame (mathIn inMath name) false (some ')') args := by
  obtain ⟨⟨⟨-, -, hargs⟩, -⟩, -, hclosed, hspaced, hapart⟩ := h
  rw [if_neg (by simp [hurl]), if_pos rfl] at hargs
  simp only [anyRelated, Bool.or_eq_false_iff] at hapart
  have hclosed' : (!true || anyUnclosed args) = false := (Bool.or_eq_false_iff.1 hclosed).1
  exact ⟨hargs, ends_closing, hclosed', hspaced.1, hapart.1.2⟩

/-- Induction over lists of nodes that takes a number together with the word or the call behind
it. -/
theorem pairInduction {motive : List Node → Prop} (nil : motive [])
    (word : ∀ text ns, motive ns → motive (.word text :: ns))
    (string : ∀ quote content ns, motive ns → motive (.string quote content :: ns))
    (call : ∀ name args closed ns, motive args → motive ns → motive (.call name args closed :: ns))
    (space : ∀ ns, motive ns → motive (.space :: ns))
    (divider : ∀ mark ns, motive ns → motive (.divider mark :: ns))
    (number : ∀ d ns, (∀ text, ns.head? ≠ some (.word text)) →
      (∀ name args closed, ns.head? ≠ some (.call name args closed)) → motive ns →
      motive (.number d :: ns))
    (numberWord : ∀ d text ns, motive ns → motive (.number d :: .word text :: ns))
    (numberCall : ∀ d name args closed ns, motive args → motive ns →
      motive (.number d :: .call name args closed :: ns)) :
    ∀ ns, motive ns := by
  intro ns
  -- A number looks one node ahead, so the tail and the arguments of the first node come along.
  suffices h : motive ns ∧ motive ns.tail ∧
      (∀ name args closed, ns.head? = some (.call name args closed) → motive args) from h.1
  induction ns using listInduction with
  | nil => exact ⟨nil, nil, by simp⟩
  | cons n ns hargs ih =>
    have hargs' : ∀ name args closed, n = .call name args closed → motive args :=
      fun name args closed hn => (hargs name args closed hn).1
    refine ⟨?_, ih.1, by simpa using hargs'⟩
    cases n with
    | word text => exact word text ns ih.1
    | string quote content => exact string quote content ns ih.1
    | call name args closed => exact call name args closed ns (hargs' _ _ _ rfl) ih.1
    | space => exact space ns ih.1
    | divider mark => exact divider mark ns ih.1
    | number d =>
      cases ns with
      | nil => exact number d [] (by simp) (by simp) nil
      | cons m ns =>
        cases m with
        | word text => exact numberWord d text ns ih.2.1
        | call name args closed =>
          exact numberCall d name args closed ns (ih.2.2 name args closed rfl) ih.2.1
        | _ => exact number d _ (by simp) (by simp) ih.1

/-- A number before neither a word nor a call ends where every token does. -/
theorem Tame.ends_number {d : Dimension} {ns : List Node}
    (h : Tame inMath joins next (.number d :: ns)) (hword : ∀ text, ns.head? ≠ some (.word text))
    (hcall : ∀ name args closed, ns.head? ≠ some (.call name args closed)) :
    Ends ((lookahead (charsAll ns)).or next) := by
  cases ns with
  | nil => exact h.ends
  | cons n ns =>
    cases n with
    | word text => exact absurd rfl (hword text)
    | call name args closed => exact absurd rfl (hcall name args closed)
    | number e =>
      have hapart := h.apart
      simp [anyRelated, bothNumbers] at hapart
    | string quote content => exact ends_quote h.fits.2.1.1
    | space => exact ends_space
    | divider mark => exact ends_divider h.fits.2.1

/-- A call right behind a number has no name. -/
theorem Tame.name_eq_empty {d : Dimension} {name : String} {args ns : List Node} {closed : Bool}
    (h : Tame inMath joins next (.number d :: .call name args closed :: ns)) : name = "" := by
  obtain ⟨⟨-, hcontinues, -⟩, ⟨hname, -⟩, -⟩ := h.fits
  rw [lookahead_call] at hcontinues
  exact name_eq_empty_of_continuesWord hname fun c hc =>
    hcontinues c (Option.or_eq_some_iff.2 (.inl hc))

/-! ### Hidden numbers -/

/-- Whether at any depth a zero that loses its unit stands before a percent sign with a number that
has a plus sign, once the words at the top level are dashed as `dash` says. -/
def anyHidden (dash inMath : Bool) (ns : List Node) : Bool :=
  anyRelated hidesNumber inMath (if dash then dashWords ns else ns)

/-- Only a number hides something in what stands behind it. -/
theorem anyHidden_cons {n : Node} (hn : ∀ d, n ≠ .number d) (ns : List Node) :
    anyHidden dash inMath (n :: ns) =
      (relatedIn hidesNumber inMath n || anyHidden dash inMath ns) := by
  have hcons : ∀ m ms, (∀ d, m ≠ .number d) → anyRelated hidesNumber inMath (m :: ms) =
      (relatedIn hidesNumber inMath m || anyRelated hidesNumber inMath ms) := by
    intro m ms hm
    have hnone : hidesNumber inMath m = fun _ => false := by
      cases m with
      | number d => exact absurd rfl (hm d)
      | _ => rfl
    cases ms <;> simp [anyRelated, hnone]
  cases dash with
  | false => exact hcons n ns hn
  | true =>
    cases n with
    | number d => exact absurd rfl (hn d)
    | _ => exact hcons _ (dashWords ns) (by simp [dashWord])

/-- A number may be hidden in the arguments of a call or behind it. -/
theorem anyHidden_call (name : String) (args : List Node) (closed : Bool) (ns : List Node) :
    anyHidden dash inMath (.call name args closed :: ns) =
      (anyHidden false (mathIn inMath name) args || anyHidden dash inMath ns) :=
  anyHidden_cons (by simp) ns

/-- A number hides nothing in what is no word. -/
theorem anyHidden_number {d : Dimension} {ns : List Node}
    (hword : ∀ text, ns.head? ≠ some (.word text)) :
    anyHidden dash inMath (.number d :: ns) = anyHidden dash inMath ns := by
  cases ns with
  | nil => cases dash <;> rfl
  | cons n ns =>
    cases n with
    | word text => exact absurd rfl (hword text)
    | _ => cases dash <;> rfl

/-- A number and a word behind it are where one may be hidden. -/
theorem anyHidden_number_word (d : Dimension) (text : String) (ns : List Node) :
    anyHidden dash inMath (.number d :: .word text :: ns) =
      (hidesNumber inMath (.number d) (.word (wordText dash text)) ||
        anyHidden dash inMath ns) := by
  rw [← show anyHidden dash inMath (.word text :: ns) = anyHidden dash inMath ns from
    anyHidden_cons (by simp) ns]
  cases dash with
  | false => simp [anyHidden, anyRelated, relatedIn, wordText]
  | true => simp [anyHidden, anyRelated, relatedIn, wordText, dashWords, dashWord]

theorem ofItems_hidesNumber : OfItems hidesNumber where
  left {_ n m} h := by cases n <;> cases m <;> simp_all [hidesNumber, isItem]
  right {_ n m} h := by cases n <;> cases m <;> simp_all [hidesNumber, isItem]
  collapseNode _ n m := by cases n <;> cases m <;> rfl

/-- Words may be dashed before or after the spaces are collapsed. -/
theorem collapse_dashWords (ns : List Node) (joins pending : Bool) :
    collapse joins pending (dashWords ns) = dashWords (collapse joins pending ns) := by
  induction ns generalizing joins pending with
  | nil => rfl
  | cons n ns ih =>
    have hcons : dashWords (n :: ns) = dashWord n :: dashWords ns := rfl
    by_cases hitem : n.isItem = true
    · have hitem' : (dashWord n).isItem = true := by cases n <;> first | rfl | cases hitem
      have hnode : collapseNode (dashWord n) = dashWord (collapseNode n) := by cases n <;> rfl
      rw [hcons, collapse_item hitem, collapse_item hitem', hnode, ih]
      split <;> rfl
    · cases n with
      | space => exact ih ..
      | divider mark => exact congrArg (.divider mark :: ·) (ih ..)
      | _ => exact absurd rfl hitem

theorem anyHidden_collapse (ns : List Node) (joins pending : Bool) :
    anyHidden dash inMath (collapse joins pending ns) = anyHidden dash inMath ns := by
  cases dash with
  | false => exact anyRelated_collapse ofItems_hidesNumber ns _ _ _
  | true =>
    have hcollapse := anyRelated_collapse ofItems_hidesNumber (dashWords ns) inMath joins pending
    rwa [collapse_dashWords] at hcollapse

/-- The text of the nodes in canonical form is read as nodes in canonical form, or else a hidden
number comes to light. -/
theorem exists_settles (dash : Bool) {ns : List Node} (h : Tame inMath joins next ns) :
    ∃ ms, Settles (anyHidden dash inMath ns) dash inMath joins next ns ms := by
  induction ns using pairInduction generalizing dash inMath joins next with
  | nil =>
    have hnone : anyHidden dash inMath [] = false := by cases dash <;> rfl
    rw [hnone]
    exact ⟨[], rfl, ⟨trivial, trivial, fun _ => List.forall_mem_nil _, by simp⟩, id, id⟩
  | word text ns ih =>
    obtain ⟨ms, hms⟩ := ih dash (h.of_cons_item rfl)
    -- What ends the word is no part of a number or a word, and is seen as before.
    have hfits : Fits ((lookahead (charsAll ms)).or next) (.word text) := by
      rw [hms.chars, lookahead_tidy h.fits.2 h.fits.1.2.1]
      exact h.fits.1
    rw [anyHidden_cons (by simp)]
    exact ⟨_, (readAs_word hfits).settles_append [.word text] (by simp) hms⟩
  | string quote content ns ih =>
    obtain ⟨ms, hms⟩ := ih dash (h.of_cons_item rfl)
    obtain ⟨ms', hread⟩ := exists_readAs_string h.fits.1
    rw [anyHidden_cons (by simp)]
    exact ⟨_, hread.settles_append [.string quote content] (by simp) hms⟩
  | call name args closed ns hargs ih =>
    obtain ⟨ms, hms⟩ := ih dash (h.of_cons_item rfl)
    obtain rfl := h.closed_call
    rw [anyHidden_call]
    by_cases hurl : Text.sameIgnoringCase name "url" = true
    · have hbody := h.fits.1.2.2
      rw [if_pos hurl] at hbody
      obtain ⟨body, rfl, -⟩ := hbody
      exact ⟨_, (readAs_url h.fits.1 hurl).settles_append [.call name [.word body] true] (by simp)
        hms⟩
    · obtain ⟨args', hargs'⟩ := hargs false (h.args (by simpa using hurl))
      refine ⟨_, (hargs'.settled.readAs_call h.fits.1.1 (by simpa using hurl)).settles_append
        [.call name args true] ?_ hms⟩
      simp [chars, hargs'.chars]
  | space ns ih =>
    obtain ⟨hjoins, hstarts, hspaced⟩ := h.spaced
    obtain ⟨ms, hms⟩ := ih dash (h.of_cons hspaced)
    subst hjoins
    rw [anyHidden_cons (by simp)]
    exact ⟨_, hms.cons_space hstarts⟩
  | divider mark ns ih =>
    obtain ⟨ms, hms⟩ := ih dash (h.of_cons h.spaced)
    rw [anyHidden_cons (by simp)]
    exact ⟨_, hms.cons_divider h.fits.1⟩
  | number d ns hword hcall ih =>
    obtain ⟨ms, hms⟩ := ih dash (h.of_cons_item rfl)
    -- Neither a word nor a call follows, so that nothing can join the number.
    have hends : Ends ((lookahead (charsAll ms)).or next) := by
      have hends := h.ends_number hword hcall
      rwa [hms.chars, lookahead_tidy h.fits.2 fun c hc => (hends c hc).1]
    obtain ⟨ms', hread⟩ := exists_readAs_number h.fits.1.1 hends
    rw [anyHidden_number hword]
    exact ⟨_, hread.settles_append [.number d] (by simp) hms⟩
  | numberWord d text ns ih =>
    obtain ⟨ms, hms⟩ := ih dash ((h.of_cons_item rfl).of_cons_item rfl)
    obtain ⟨hd, htext, hns⟩ := h.fits
    have hseen : lookahead (charsAll ms) = lookahead (charsAll ns) := by
      rw [hms.chars, lookahead_tidy hns htext.2.1]
    rw [charsAll_cons, lookahead_append, Option.or_assoc, ← hseen] at hd
    rw [← hseen] at htext
    obtain ⟨ms', hread⟩ := exists_readAs_number_word hd htext
    rw [anyHidden_number_word]
    exact ⟨_, hread.settles_append [.number d, .word text] (by simp) hms⟩
  | numberCall d name args closed ns hargs ih =>
    have hcall := h.of_cons_item rfl
    obtain ⟨ms, hms⟩ := ih dash (hcall.of_cons_item rfl)
    obtain rfl := hcall.closed_call
    obtain rfl := h.name_eq_empty
    have hmath : mathIn inMath "" = inMath := Bool.or_false inMath
    -- Parentheses without a name are no calculation, and neither is a call named by a number.
    obtain ⟨args', hargs'⟩ := hargs false (hcall.args (by decide))
    rw [hmath] at hargs'
    obtain ⟨ms', hread⟩ := exists_readAs_number_call h.fits.1.1 hargs'.settled
    rw [anyHidden_number (by simp), anyHidden_call, hmath]
    refine ⟨_, hread.settles_append [.number d, .call "" args true] ?_ hms⟩
    simp [chars, hmath, hargs'.chars]

/-! ### Plus signs -/

/-- A capital and its small letter are letters, and no plus sign is one. -/
theorem toLower_beq_plus (c : Char) : (c.toLower == '+') = (c == '+') := by
  cases hupper : c.isUpper with
  | false => rw [Text.toLower_of_not_isUpper hupper]
  | true =>
    have hne : ∀ d : Char, d.isAlpha = true → (d == '+') = false := by
      intro d hd
      refine beq_eq_false_iff_ne.2 ?_
      rintro rfl
      exact absurd hd (by decide)
    obtain ⟨-, hcapital, hsmall⟩ := Text.toLower_capital hupper
    rw [hne c hcapital, hne c.toLower hsmall]

/-- Dashing neither adds nor removes a plus sign, whatever stands before the text. -/
theorem count_plus_dashAfter (previous : Option Char) (cs : List Char) :
    (Property.dashAfter previous cs).count '+' = cs.count '+' := by
  induction cs generalizing previous with
  | nil => rfl
  | cons c cs ih =>
    have hdash : (if c.isUpper && previous.all Char.isLower then ['-'] else []).count '+' = 0 := by
      split <;> rfl
    rw [Property.dashAfter, List.count_append, hdash, List.count_cons, List.count_cons, ih,
      toLower_beq_plus, Nat.zero_add]

/-- A word has as many plus signs as before it is dashed. -/
theorem count_plus_wordText (dash : Bool) (text : String) :
    (wordText dash text).toList.count '+' = text.toList.count '+' := by
  cases dash with
  | false => rfl
  | true =>
    rw [wordText, if_pos rfl, Property.dashed]
    split
    · rfl
    · rw [String.toList_ofList, count_plus_dashAfter]

/-- The plus sign of a number gets lost. -/
theorem count_plus_normalDimension (inMath : Bool) {d : Dimension} (hd : d.IsWritten) :
    (normalDimension inMath d).chars.count '+' + (hasPlus inMath d).toNat ≤ d.chars.count '+' := by
  have hnone : (normalDimension inMath d).chars.count '+' = 0 :=
    List.count_eq_zero.2 (Dimension.isShown_normalDimension inMath hd).plus_notMem
  rw [hnone, Nat.zero_add]
  cases hplus : hasPlus inMath d with
  | false => exact Nat.zero_le _
  | true =>
    have hmem : '+' ∈ d.number.toList := List.mem_of_mem_head? (by simpa [hasPlus] using hplus)
    exact List.one_le_count_iff.2 (List.mem_append_left _ hmem)

/-- Canonical nodes have no more plus signs than before, and fewer if a number had one. -/
theorem count_plus_rewriteNode (dash inMath : Bool) {ns : List Node} (h : AllFit next ns) :
    (charsAll (ns.map (rewriteNode normalDimension dash inMath))).count '+' +
      (anyNumber hasPlus inMath ns).toNat ≤ (charsAll ns).count '+' := by
  induction ns using listInduction generalizing dash inMath next with
  | nil => exact Nat.le_refl 0
  | cons n ns hargs ih =>
    -- A node on its own, in each of its forms; only a number loses its sign.
    have hn : (rewriteNode normalDimension dash inMath n).chars.count '+' +
        (numberIn hasPlus inMath n).toNat ≤ n.chars.count '+' := by
      cases n with
      | word text =>
        rw [rewriteNode_word, chars, chars, count_plus_wordText]
        exact Nat.le_refl _
      | number d =>
        rw [rewriteNode_number]
        exact count_plus_normalDimension inMath h.1.1
      | string quote content =>
        obtain ⟨quote', hquote', -, hnode, -⟩ := doubleQuotedNode_string h.1.1 h.1.2
        have hcount : ∀ {q}, isQuote q = true →
            (chars (.string q content)).count '+' = content.toList.count '+' := by
          intro q hq
          rcases isQuote_cases hq with rfl | rfl <;> simp [chars]
        rw [rewriteNode_string, hnode, hcount hquote', hcount h.1.1]
        exact Nat.le_refl _
      | call name args closed =>
        have hbody := h.1.2.2
        by_cases hurl : Text.sameIgnoringCase name "url" = true
        · rw [rewriteNode_url h.1 hurl]
          rw [if_pos hurl] at hbody
          obtain ⟨body, rfl, -⟩ := hbody
          exact Nat.le_refl _
        · rw [if_neg hurl] at hbody
          have hcount := hargs name args closed rfl false (mathIn inMath name) hbody
          rw [rewriteNode_call, numberIn]
          simp only [chars, List.count_append, List.count_cons]
          omega
      | space => simp [numberIn]
      | divider mark => simp [numberIn]
    have hns := ih dash inMath h.2
    have hor : ∀ a b : Bool, (a || b).toNat ≤ a.toNat + b.toNat := by decide
    have hany := hor (numberIn hasPlus inMath n) (anyNumber hasPlus inMath ns)
    rw [List.map_cons, charsAll_cons, charsAll_cons, List.count_append, List.count_append,
      anyNumber]
    omega

/-! ### Values -/

theorem ofItems_bothNumbers : OfItems bothNumbers where
  left {_ n m} h := by cases n <;> cases m <;> simp_all [bothNumbers, isItem]
  right {_ n m} h := by cases n <;> cases m <;> simp_all [bothNumbers, isItem]
  collapseNode _ n m := by cases n <;> cases m <;> rfl

/-- Collapsing leaves nothing only of gaps. -/
theorem withoutGaps_of_collapse_eq_nil {ns : List Node} {pending : Bool}
    (h : collapse joins pending ns = []) : withoutGaps (charsAll ns) = [] := by
  induction ns generalizing pending with
  | nil => rfl
  | cons n ns ih =>
    by_cases hitem : n.isItem = true
    · rw [collapse_item hitem] at h
      simp at h
    · cases n with
      | space => exact ih h
      | divider mark => cases h
      | _ => exact absurd rfl hitem

/-- Nodes in canonical form do not begin with a blank. -/
theorem Settled.isBlankText_render {n : Node} {ns : List Node}
    (h : Settled hidden dash inMath false next (n :: ns)) :
    Text.isBlankText (render (n :: ns)) = false := by
  have hspace : n.isSpace = false := by
    cases n with
    | space => cases h.spaced.1
    | _ => rfl
  obtain ⟨c, cs, hchars, hc⟩ := h.fits.1.exists_head_not_blank hspace
  simp [Text.isBlankText, hchars, hc]

end Node

open Node

/-- The canonical form of a number in a value of the property. -/
def canonicalNumber (options : Options) (property : String) (inMath : Bool) (d : Dimension) :
    Dimension :=
  if options.lengthToRem && property == Property.fontSize then toRem (normalDimension inMath d)
  else normalDimension inMath d

/-- The nodes of a canonical value are those of the value without needless gaps, rewritten one by
one. -/
theorem normalNodes_eq_map (options : Options) (property : String) (ns : List Node) :
    normalNodes options property ns = (collapse false false ns).map
      (rewriteNode (canonicalNumber options property) (Property.listing.contains property)
        false) := by
  have hnodes : (if Property.listing.contains property then
        dashWords (doubleQuoted (mapNumbers normalDimension false (collapse false false ns)))
      else doubleQuoted (mapNumbers normalDimension false (collapse false false ns))) =
      (collapse false false ns).map
        (rewriteNode normalDimension (Property.listing.contains property) false) := by
    simp only [mapNumbers_eq_map, doubleQuoted_eq_map, dashWords, List.map_map]
    cases Property.listing.contains property <;> rfl
  rw [normalNodes, hnodes]
  unfold canonicalNumber
  split
  · exact mapNumbers_rewriteNode ..
  · rfl

/-- Normal nodes are collapsed first, and then rewritten one by one. -/
theorem normalNodes_eq {options : Options} {property : String}
    (h : options.lengthToRem = false ∨ property ≠ Property.fontSize) (ns : List Node) :
    normalNodes options property ns =
      (collapse false false ns).map
        (rewriteNode normalDimension (Property.listing.contains property) false) := by
  have hrem : (options.lengthToRem && property == Property.fontSize) = false := by
    rcases h with h | h <;> simp [h]
  have hnumber : canonicalNumber options property = normalDimension := by
    funext inMath d
    rw [canonicalNumber, hrem, if_neg (by simp)]
  rw [normalNodes_eq_map, hnumber]

section Outcomes

variable {options : Options} {property raw : String}

theorem normalValue_of_isBlankText (hproperty : Property.textual.contains property = false)
    (hblank : Text.isBlankText raw = true) :
    normalValue options property raw = .error (.malformed property raw .emptyValue) := by
  rw [normalValue, hproperty, if_neg (by simp), if_pos hblank]

/-- A value that is not blank is read, normalized node by node and written. -/
theorem normalValue_of_readClosed (hproperty : Property.textual.contains property = false)
    (hblank : Text.isBlankText raw = false) :
    normalValue options property raw =
      (readClosed property raw).map fun nodes => render (normalNodes options property nodes) := by
  rw [normalValue, hproperty, if_neg (by simp), hblank, if_neg (by simp)]

theorem readClosed_of_error {failure : ParseFailure} (hparse : parseValue raw = .error failure) :
    readClosed property raw = .error (.malformed property raw (.unreadable failure)) := by
  simp [readClosed, hparse]

theorem readClosed_of_ok {nodes : List Node} (hparse : parseValue raw = .ok nodes) :
    readClosed property raw =
      if anyUnclosed nodes then .error (.malformed property raw .unclosedCall) else .ok nodes := by
  simp [readClosed, hparse]

end Outcomes

/-- When a value has a canonical form, and which one. -/
theorem normalValue_eq_ok {options : Options} {property raw v : String}
    (hproperty : Property.textual.contains property = false) :
    normalValue options property raw = .ok v ↔
      Text.isBlankText raw = false ∧ ∃ nodes, parseValue raw = .ok nodes ∧
        anyUnclosed nodes = false ∧ render (normalNodes options property nodes) = v := by
  rw [normalValue, hproperty, if_neg (by simp)]
  cases hblank : Text.isBlankText raw with
  | true => simp
  | false =>
    rw [if_neg (by simp), readClosed]
    cases hparse : parseValue raw with
    | error failure => simp [Except.map]
    | ok nodes => cases hclosed : anyUnclosed nodes <;> simp [Except.map, hclosed]

/-- Nodes in canonical form make a text that is its own canonical form. -/
theorem Node.Settled.normalValue_render {options : Options} {property : String} {ns : List Node}
    (h : Settled false (Property.listing.contains property) false false none ns) (hne : ns ≠ [])
    (hproperty : Property.textual.contains property = false)
    (hrem : options.lengthToRem = false ∨ property ≠ Property.fontSize) :
    normalValue options property (render ns) = .ok (render ns) := by
  obtain ⟨hmap, hclosed⟩ := map_eq_self_of_isTidy (h.tidy rfl)
  have hnormal : normalNodes options property ns = ns := by
    rw [normalNodes_eq hrem, h.spaced.collapse_eq, hmap]
  have hblank : Text.isBlankText (render ns) = false := by
    obtain ⟨n, ms, rfl⟩ := List.exists_cons_of_ne_nil hne
    exact h.isBlankText_render
  rw [normalValue_eq_ok hproperty]
  exact ⟨hblank, ns, parseValue_render_iff.2 h.fits, hclosed, by rw [hnormal]⟩

/-- The nodes of a value that was read still fit together without their idle spaces. -/
theorem allFit_collapse {raw : String} {nodes : List Node} (h : parseValue raw = .ok nodes) :
    AllFit none (collapse false false nodes) :=
  ((parseValue_eq_ok.1 h).allFit (.inl rfl)).1.collapse_of_ends ends_none false false

/-- The nodes of a value are tame once their gaps are collapsed. -/
theorem tame_collapse {raw : String} {nodes : List Node} (h : parseValue raw = .ok nodes)
    (hclosed : anyUnclosed nodes = false) (hapart : anyRelated bothNumbers false nodes = false) :
    Tame false false none (collapse false false nodes) where
  fits := allFit_collapse h
  ends := ends_none
  closed := (anyUnclosed_collapse nodes false false).trans hclosed
  spaced := spaced_collapse nodes false false
  apart := (anyRelated_collapse ofItems_bothNumbers nodes _ _ _).trans hapart

/-- Something is left of a value that is not blank. -/
theorem collapse_ne_nil {raw : String} {nodes : List Node} (h : parseValue raw = .ok nodes)
    (hblank : Text.isBlankText raw = false) : collapse false false nodes ≠ [] := by
  intro hnil
  have hgaps : withoutGaps raw.toList = [] := by
    rw [(parseValue_eq_ok.1 h).withoutGaps_eq, List.append_nil, withoutGaps_of_collapse_eq_nil hnil]
  have hall : Text.isBlankText raw = true := by
    rw [Text.isBlankText, List.all_eq_true]
    intro c hc
    have hgap : isGap c = true := by simpa using List.filter_eq_nil_iff.1 hgaps c hc
    rcases isGap_cases hgap with rfl | rfl | rfl | rfl <;> decide
  rw [hall] at hblank
  cases hblank

/-- A text whose numbers have lost a plus sign is another one. -/
theorem Node.Settled.normalValue_ne {options : Options} {property : String} {ns : List Node}
    (h : Settled true (Property.listing.contains property) false false none ns)
    (hproperty : Property.textual.contains property = false)
    (hrem : options.lengthToRem = false ∨ property ≠ Property.fontSize) :
    normalValue options property (render ns) ≠ .ok (render ns) := by
  intro hfixed
  obtain ⟨-, nodes, hparse, -, hrender⟩ := (normalValue_eq_ok hproperty).1 hfixed
  obtain rfl : ns = nodes := Except.ok.inj ((parseValue_render_iff.2 h.fits).symm.trans hparse)
  have hchars := congrArg (·.toList.count '+') hrender
  simp only [toList_render, normalNodes_eq hrem, h.spaced.collapse_eq] at hchars
  have hcount := count_plus_rewriteNode (Property.listing.contains property) false h.fits
  rw [h.plus rfl, hchars] at hcount
  exact absurd hcount (by simp)

/-- Canonical values are fixed, if no two numbers stand side by side in the raw value: then its
canonical form is its own canonical form unless a zero that loses its unit stands before a percent
sign with a number that has a plus sign. -/
theorem normalValue_normalValue {options : Options} {property raw v : String} {nodes : List Node}
    (hproperty : Property.textual.contains property = false)
    (hrem : options.lengthToRem = false ∨ property ≠ Property.fontSize)
    (hparse : parseValue raw = .ok nodes)
    (hapart : anyRelated bothNumbers false nodes = false)
    (h : normalValue options property raw = .ok v) :
    normalValue options property v = .ok v ↔
      anyHidden (Property.listing.contains property) false nodes = false := by
  obtain ⟨hblank, nodes', hparse', hclosed, rfl⟩ := (normalValue_eq_ok hproperty).1 h
  obtain rfl : nodes = nodes' := Except.ok.inj (hparse.symm.trans hparse')
  obtain ⟨ms, hms⟩ := exists_settles (Property.listing.contains property)
    (tame_collapse hparse hclosed hapart)
  have hv : render (normalNodes options property nodes) = render ms := by
    rw [normalNodes_eq hrem, render, render, hms.chars]
  rw [anyHidden_collapse] at hms
  rw [hv]
  -- A hidden number comes to light with its plus sign, which the second run drops.
  cases hhidden : anyHidden (Property.listing.contains property) false nodes with
  | false =>
    rw [hhidden] at hms
    have hne := hms.ne_nil (collapse_ne_nil hparse hblank)
    exact iff_of_true (hms.settled.normalValue_render hne hproperty hrem) rfl
  | true =>
    rw [hhidden] at hms
    exact iff_of_false (hms.settled.normalValue_ne hproperty hrem) (by simp)

theorem normalValue_normalValue_percent :
    (let raw := "0px%-5 0px%+5aB +5.0('b')Ax"
      let v := "0%-5 0%+5a-b 5(\"b\")-ax"
      normalValue {} "will-change" raw = .ok v ∧ normalValue {} "will-change" v = .ok v) ∧
    normalValue {} "width" "0px%+5" = .ok "0%+5" ∧
      normalValue {} "width" "0%+5" ≠ .ok "0%+5" := by
  constructor
  · have hparse : parseValue "0px%-5 0px%+5aB +5.0('b')Ax" = .ok
        [.number ⟨"0", "px"⟩, .word "%-5", .space, .number ⟨"0", "px"⟩, .word "%+5aB", .space,
          .number ⟨"+5.0", ""⟩, .call "" [.string '\'' "b"] true, .word "Ax"] := by
      cbv
    have h : normalValue {} "will-change" "0px%-5 0px%+5aB +5.0('b')Ax" =
        .ok "0%-5 0%+5a-b 5(\"b\")-ax" :=
      (normalValue_eq_ok (by decide)).2 ⟨by decide, _, hparse, by decide, by decide⟩
    exact ⟨h, (normalValue_normalValue (by decide) (.inl rfl) hparse (by decide) h).2 (by decide)⟩
  · have hparse : parseValue "0px%+5" = .ok [.number ⟨"0", "px"⟩, .word "%+5"] := by cbv
    have h : normalValue {} "width" "0px%+5" = .ok "0%+5" :=
      (normalValue_eq_ok (by decide)).2 ⟨by decide, _, hparse, by decide, by decide⟩
    have hiff := normalValue_normalValue (by decide) (.inl rfl) hparse (by decide) h
    exact ⟨h, fun hfixed => absurd (hiff.1 hfixed) (by decide)⟩

end AtomicCss
