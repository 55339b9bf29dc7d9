import AtomicCss.Proofs.Value.Idempotence

/-!
# Where one token ends and the next begins

Canonical nodes are written side by side with no more gaps than there were. Words, strings and calls
end where they did before. A number may not: it loses its plus sign and runs into the number before
it, or it loses its unit and takes the percent sign behind it, or it is left with characters of
names only and becomes the name of the call behind it, or it is infinite and no number any more.

* `Node.runsOn`: the neighbours of a number that it may run into.
* `Node.allFit_rewriteNode_iff`: the nodes are tokens still if and only if no number runs on and
  none is infinite.
* `Node.exists_reads_rewriteNode`: in any case the text can be read.
* `Node.Rejoins`: what it is read as even then. Nothing of the text is lost, the gaps stay where
  they are, and a number with a plus sign stands right behind another number.
-/

namespace AtomicCss

open Text (Stops)

namespace Node

variable {f : Bool → Dimension → Dimension} {next : Option Char}

/-! ### Numbers that run on -/

/-- Whether a number runs into what stands right behind it once both are rewritten: another number,
which begins without a sign then, a percent sign that is taken for the unit, or the parenthesis of a
call that the number becomes the name of. -/
def runsOn (f : Bool → Dimension → Dimension) (inMath : Bool) : Node → Node → Bool
  | .number _, .number _ => true
  | .number d, .word text => (f inMath d).unit == "" && text.toList.head? == some '%'
  | .number d, .call .. => (f inMath d).chars.all isNameChar
  | _, _ => false

theorem ofItems_runsOn (f : Bool → Dimension → Dimension) : OfItems (runsOn f) where
  left {_ n m} h := by cases n <;> cases m <;> simp_all [runsOn, isItem]
  right {_ n m} h := by cases n <;> cases m <;> simp_all [runsOn, isItem]
  collapseNode _ n m := by cases n <;> cases m <;> rfl

/-- Where every token ends, a number does so too, unless it is infinite. -/
theorem fits_number_iff_of_ends {e : Dimension} (he : e.IsShown) (hnext : Ends next) :
    Fits next (.number e) ↔ e.overflows = false := by
  rw [← he.isWritten_iff]
  exact ⟨fun h => h.1, fun h => fits_number_of_ends h hnext⟩

/-- A number before a word: only a percent sign is not left to the word. -/
theorem fits_number_iff_of_word {e : Dimension} {c : Char} (he : e.IsShown)
    (hword : isWordChar c = true) (hc : continuesWord [c] = false) :
    Fits (some c) (.number e) ↔ (e.unit == "" && c == '%') = false ∧ e.overflows = false := by
  rw [← he.isWritten_iff]
  constructor
  · rintro ⟨hwritten, -, -, hpercent⟩
    refine ⟨?_, hwritten⟩
    by_cases heq : c = '%'
    · simp [hpercent (congrArg some heq)]
    · simp [heq]
  · rintro ⟨hpercent, hwritten⟩
    refine ⟨hwritten, fun d hd => Option.mem_some.1 hd ▸ hc, fun hopen => ?_, fun heq hunit => ?_⟩
    · obtain rfl := Option.some.inj hopen
      exact absurd hword (by decide)
    · obtain rfl := Option.some.inj heq
      simp [hunit] at hpercent

/-- A number before a parenthesis. -/
theorem fits_number_iff_of_opening {e : Dimension} (he : e.IsShown) :
    Fits (some '(') (.number e) ↔ e.chars.all isNameChar = false ∧ e.overflows = false := by
  rw [← he.isWritten_iff, List.all_eq_false]
  constructor
  · rintro ⟨hwritten, -, hopen, -⟩
    exact ⟨by simpa using hopen rfl, hwritten⟩
  · rintro ⟨hopen, hwritten⟩
    refine ⟨hwritten, fun d hd => ?_, fun _ => by simpa using hopen, by simp⟩
    obtain rfl := Option.mem_some.1 hd
    decide

/-- A number before a number that has no plus sign. -/
theorem not_fits_number {d e : Dimension} (he : e.IsShown) (t : List Char) :
    ¬ Fits ((lookahead (e.chars ++ t)).or next) (.number d) := by
  rintro ⟨-, hcontinues, -⟩
  obtain ⟨c, cs, hchars, hc⟩ := he.exists_head
  have hword : isWordChar c = true := he.wordChars c (by simp [hchars])
  have hfalse := hcontinues c (by
    rw [hchars, List.cons_append, lookahead_cons, seenAs_of_isWordChar hword]
    rfl)
  rw [hfalse] at hc
  cases hc

/-- When a number that was a token is one after it and what follows have been rewritten. -/
theorem fits_number_iff (hf : Shows f) (dash inMath : Bool) {d : Dimension} {ns : List Node}
    (h : Fits ((lookahead (charsAll ns)).or next) (.number d)) (hns : AllFit next ns)
    (hnext : Ends next) :
    Fits ((lookahead (charsAll (ns.map (rewriteNode f dash inMath)))).or next)
        (.number (f inMath d)) ↔
      ns.head?.any (runsOn f inMath (.number d)) = false ∧ (f inMath d).overflows = false := by
  have hshown := hf inMath d h.1
  have hcontinues := h.2.1
  have hends : ∀ {seen}, Ends seen → (Fits seen (.number (f inMath d)) ↔
      false = false ∧ (f inMath d).overflows = false) := fun hseen => by
    simpa using fits_number_iff_of_ends hshown hseen
  cases ns with
  | nil => exact hends hnext
  | cons n ns =>
    obtain ⟨hn, -⟩ := hns
    -- Words and calls begin as they did, with something that ends a number.
    cases n with
    | word text =>
      obtain ⟨c, cs, hchars⟩ := List.exists_cons_of_ne_nil hn.1.ne_nil
      have hword : isWordChar c = true := hn.1.chars c (by simp [hchars])
      have hc : continuesWord [c] = false := hcontinues c (by
        rw [charsAll_cons, chars, hchars, List.cons_append, lookahead_cons,
          seenAs_of_isWordChar hword]
        rfl)
      obtain ⟨cs', hchars', -⟩ := wordText_cons dash hchars (isNameChar_of_continuesWord hc)
      rw [List.map_cons, rewriteNode_word, charsAll_cons, chars, hchars', List.cons_append,
        lookahead_cons, seenAs_of_isWordChar hword, Option.some_or,
        fits_number_iff_of_word hshown hword hc]
      simp [runsOn, hchars]
    | number e =>
      rw [List.map_cons, rewriteNode_number, charsAll_cons]
      exact ⟨fun hfits => absurd hfits (not_fits_number (hf inMath e hn.1) _),
        fun hfalse => by cases hfalse.1⟩
    | call name args closed =>
      rw [lookahead_call] at hcontinues
      obtain rfl := name_eq_empty_of_continuesWord hn.1 fun c hc =>
        hcontinues c (Option.or_eq_some_iff.2 (.inl hc))
      rw [List.map_cons, rewriteNode_call, lookahead_call]
      exact fits_number_iff_of_opening hshown
    | string quote content =>
      obtain ⟨quote', hquote', -, hnode, -⟩ := doubleQuotedNode_string hn.1 hn.2
      rw [List.map_cons, rewriteNode_string, hnode]
      exact hends (ends_quote hquote')
    | space =>
      rw [List.map_cons, rewriteNode_space]
      exact hends ends_space
    | divider mark =>
      rw [List.map_cons, rewriteNode_divider]
      exact hends (ends_divider hn)

/-! ### Nodes that stay tokens -/

/-- No number runs on, and none becomes infinite. -/
def KeepsTokens (f : Bool → Dimension → Dimension) (inMath : Bool) (ns : List Node) : Prop :=
  anyRelated (runsOn f) inMath ns = false ∧
    anyNumber (fun inMath d => (f inMath d).overflows) inMath ns = false

/-- Spaces that are dropped are no boundaries, so that the condition is not about them. -/
theorem keepsTokens_collapse {inMath : Bool} {ns : List Node} :
    KeepsTokens f inMath (collapse false false ns) ↔ KeepsTokens f inMath ns := by
  rw [KeepsTokens, anyRelated_collapse (ofItems_runsOn f), anyNumber_collapse]
  exact Iff.rfl

section Cons

variable {inMath : Bool} {ns : List Node}

theorem keepsTokens_number {d : Dimension} :
    KeepsTokens f inMath (.number d :: ns) ↔
      (ns.head?.any (runsOn f inMath (.number d)) = false ∧ (f inMath d).overflows = false) ∧
        KeepsTokens f inMath ns := by
  simp only [KeepsTokens, anyRelated, anyNumber, relatedIn, numberIn, Bool.or_false,
    Bool.or_eq_false_iff]
  exact and_and_and_comm

/-- Nothing but a number runs on. -/
theorem keepsTokens_cons {n : Node} (hn : ∀ d, n ≠ .number d) :
    KeepsTokens f inMath (n :: ns) ↔
      (relatedIn (runsOn f) inMath n = false ∧
        numberIn (fun inMath d => (f inMath d).overflows) inMath n = false) ∧
      KeepsTokens f inMath ns := by
  have hhead : ns.head?.any (runsOn f inMath n) = false := by
    cases ns with
    | nil => rfl
    | cons m ns =>
      cases n with
      | number d => exact absurd rfl (hn d)
      | _ => rfl
  simp only [KeepsTokens, anyRelated, anyNumber, hhead, Bool.false_or, Bool.or_eq_false_iff]
  exact and_and_and_comm

theorem keepsTokens_call {name : String} {args : List Node} {closed : Bool} :
    KeepsTokens f inMath (.call name args closed :: ns) ↔
      KeepsTokens f (mathIn inMath name) args ∧ KeepsTokens f inMath ns :=
  keepsTokens_cons (by simp)

end Cons

/-- A call is a token still if its arguments are. -/
theorem fits_call_iff (dash : Bool) {inMath : Bool} {name : String} {args : List Node}
    {closed : Bool} {seen seen' : Option Char} (h : Fits seen (.call name args closed))
    (hseen : SeenAlike seen seen')
    (hargs : ∀ next, AllFit next args → Ends next →
      (AllFit next (args.map (rewriteNode f false (mathIn inMath name))) ↔
        KeepsTokens f (mathIn inMath name) args)) :
    Fits seen' (rewriteNode f dash inMath (.call name args closed)) ↔
      KeepsTokens f (mathIn inMath name) args := by
  have hclosed : closed = false → seen' = none := by
    intro hfalse
    obtain rfl := h.2.1 hfalse
    exact hseen.eq_of_not_isWordChar fun c hc => by cases hc
  by_cases hurl : Text.sameIgnoringCase name "url" = true
  · rw [rewriteNode_url h hurl]
    obtain ⟨hname, -, hbody⟩ := h
    refine ⟨fun _ => ?_, fun _ => ⟨hname, hclosed, hbody⟩⟩
    -- There is nothing but a word between the parentheses, whatever its characters are.
    rw [if_pos hurl] at hbody
    obtain ⟨body, rfl, -⟩ := hbody
    exact ⟨rfl, rfl⟩
  · obtain ⟨hname, -, hbody⟩ := h
    have hends : Ends (if closed then some ')' else none) := by
      cases closed with
      | true => exact ends_closing
      | false => exact ends_none
    rw [if_neg hurl] at hbody
    rw [rewriteNode_call, ← hargs _ hbody hends]
    constructor
    · rintro ⟨-, -, hfits⟩
      rwa [if_neg hurl] at hfits
    · intro hfits
      refine ⟨hname, hclosed, ?_⟩
      rwa [if_neg hurl]

/-- Nodes that are tokens side by side are so after they have been rewritten if and only if no
number runs on and none is infinite. -/
theorem allFit_rewriteNode_iff (hf : Shows f) (dash inMath : Bool) {ns : List Node}
    (h : AllFit next ns) (hnext : Ends next) :
    AllFit next (ns.map (rewriteNode f dash inMath)) ↔ KeepsTokens f inMath ns := by
  induction ns using listInduction generalizing dash inMath next with
  | nil => exact ⟨fun _ => ⟨rfl, rfl⟩, fun _ => trivial⟩
  | cons n ns hargs ih =>
    obtain ⟨hn, hns⟩ := h
    have hseen := (seenAlike_rewriteNode hf dash inMath hns).or next
    rw [List.map_cons, AllFit, ih dash inMath hns hnext]
    cases n with
    | number d =>
      rw [keepsTokens_number, rewriteNode_number, fits_number_iff hf dash inMath hn hns hnext]
    | call name args closed =>
      rw [keepsTokens_call, fits_call_iff dash hn hseen fun next hfit hends =>
        hargs name args closed rfl false (mathIn inMath name) hfit hends]
    -- The other nodes hold no numbers and end where they did.
    | word text =>
      rw [keepsTokens_cons (by simp), rewriteNode_word, hseen.eq_of_not_isWordChar hn.2.1]
      refine and_congr_left' ⟨fun _ => ⟨rfl, rfl⟩, fun _ => ⟨isWord_wordText dash hn.1, hn.2.1, ?_⟩⟩
      exact fun hopen => exists_not_isNameChar_wordText dash (hn.2.2 hopen)
    | string quote content =>
      obtain ⟨quote', hquote', hcontent', hnode, -⟩ := doubleQuotedNode_string hn.1 hn.2
      rw [keepsTokens_cons (by simp), rewriteNode_string, hnode]
      exact and_congr_left' ⟨fun _ => ⟨rfl, rfl⟩, fun _ => ⟨hquote', hcontent'⟩⟩
    | space =>
      rw [keepsTokens_cons (by simp), rewriteNode_space]
      exact and_congr_left' ⟨fun _ => ⟨rfl, rfl⟩, fun _ => hseen.ne_space hn⟩
    | divider mark =>
      rw [keepsTokens_cons (by simp), rewriteNode_divider]
      exact and_congr_left' ⟨fun _ => ⟨rfl, rfl⟩, fun _ => hn⟩

/-! ### The text can be read -/

/-- A run of characters of words is read in front of what can be read. -/
theorem exists_reads_run {run t rest : List Char} {ns : List Node}
    (hrun : ∀ c ∈ run, isWordChar c = true) (ht : Stops isWordChar t)
    (hopened : run ≠ [] → NotOpened run t) (h : Reads t ns rest) :
    ∃ items, RunItems run items ∧ Reads (run ++ t) (items ++ ns) rest := by
  obtain ⟨items, hitems, hfits⟩ := exists_allFit_run hrun (stops_isWordChar_iff.1 ht)
    fun hne => notOpened_iff.1 (hopened hne)
  have hreads := hfits.reads_append hitems.isLeaf h
  rw [hitems.chars] at hreads
  exact ⟨items, hitems, hreads⟩

/-- A run in front of a text that ends it is read as items of its own. -/
theorem exists_reads_of_ends {run t rest : List Char} {ns : List Node}
    (hrun : ∀ c ∈ run, isWordChar c = true) (h : Reads t ns rest) (ht : Ends (lookahead t)) :
    ∃ items, RunItems run items ∧ Reads (run ++ t) (items ++ ns) rest := by
  refine exists_reads_run hrun (stops_isWordChar_iff.2 fun c hc => (ht c hc).1) (fun _ => ?_) h
  exact notOpened_iff.2 fun hopen => absurd rfl (ht _ hopen).2

theorem ends_of_isEnd {cs : List Char} (h : IsEnd cs) : Ends (lookahead cs) := by
  rcases h with rfl | h
  · exact ends_none
  · rw [(mem_head_iff_lookahead (by decide) (by decide)).1 h]
    exact ends_closing

/-- Characters of numbers that are written and that more may be added to; `seen` was seen behind the
last of the numbers. -/
structure IsPending (run : List Char) (seen : Option Char) : Prop where
  wordChars : ∀ c ∈ run, isWordChar c = true
  ends : run ≠ [] → ∀ c ∈ seen, continuesWord [c] = false
  not_url : run ≠ [] → ∃ c ∈ run, c.toLower ∉ "url".toList
  not_plus : run.head? ≠ some '+'

theorem isPending_nil (seen : Option Char) : IsPending [] seen where
  wordChars := List.forall_mem_nil _
  ends h := absurd rfl h
  not_url h := absurd rfl h
  not_plus := by simp

/-- A run stays pending when the digits of a number join it. -/
theorem IsPending.append_number {run : List Char} {seen seen' : Option Char}
    (h : IsPending run seen) {e : Dimension} (he : e.IsShown)
    (hseen : ∀ c ∈ seen', continuesWord [c] = false) : IsPending (run ++ e.chars) seen' where
  wordChars c hc := by
    rcases List.mem_append.1 hc with hc | hc
    · exact h.wordChars c hc
    · exact he.wordChars c hc
  ends _ := hseen
  not_url _ := by
    obtain ⟨c, hc, hnot⟩ := he.exists_notMem_url
    exact ⟨c, List.mem_append_right _ hc, hnot⟩
  not_plus := by
    cases run with
    | nil =>
      obtain ⟨c, cs, hchars, hc⟩ := he.exists_head
      rw [List.nil_append, hchars, List.head?_cons, Ne, Option.some_inj]
      rintro rfl
      exact absurd hc (by decide)
    | cons c run => exact h.not_plus

/-- No number with a plus sign comes first in what a run is read as. -/
theorem IsPending.plus {run : List Char} {seen : Option Char} {items : List Node}
    (h : IsPending run seen) (hitems : RunItems run items) : PlusBehindNumber false items :=
  hitems.plus fun hplus => absurd hplus h.not_plus

/-- Nor does it with a word behind the run. -/
theorem IsPending.plus_word {run text : List Char} {seen : Option Char} {items : List Node}
    (h : IsPending run seen) (htext : IsWord text) (hitems : RunItems (run ++ text) items) :
    PlusBehindNumber false items := by
  refine hitems.plus fun hplus => .inr ?_
  cases run with
  | nil => exact htext.not_number
  | cons c run => exact absurd hplus h.not_plus

/-- A pending run is not taken for the name of an address. -/
theorem IsPending.sameIgnoringCase_eq {run : List Char} {seen : Option Char}
    (h : IsPending run seen) (hne : run ≠ []) :
    Text.sameIgnoringCase (String.ofList run) "url" = false := by
  obtain ⟨c, hc, hnot⟩ := h.not_url hne
  rw [Text.sameIgnoringCase, beq_eq_false_iff_ne]
  intro heq
  have hmem : c.toLower ∈ (Text.asciiLower (String.ofList run)).toList := by
    rw [Text.toList_asciiLower, String.toList_ofList]
    exact List.mem_map_of_mem hc
  rw [heq] at hmem
  exact hnot hmem

/-- A call right behind a number has no name. -/
theorem IsPending.name_eq_empty {run rest : List Char} {name : String} {args ns : List Node}
    {closed : Bool}
    (h : IsPending run (lookahead (charsAll (.call name args closed :: ns) ++ rest)))
    (hname : ∀ c ∈ name.toList, isNameChar c = true) (hne : run ≠ []) : name = "" := by
  refine name_eq_empty_of_continuesWord hname fun c hc => h.ends hne c ?_
  rw [lookahead_append, lookahead_call]
  exact Option.or_eq_some_iff.2 (.inl hc)

/-- A call behind a run takes it for its name if it can. -/
theorem exists_reads_call {run t u rest : List Char} {seen : Option Char} {name : String}
    {args ns : List Node} (hrun : IsPending run seen)
    (hname : ∀ c ∈ name.toList, isNameChar c = true)
    (hurl : Text.sameIgnoringCase name "url" = false) (hempty : run ≠ [] → name = "")
    (hargs : Reads t args (')' :: u)) (hns : Reads u ns rest) :
    ∃ items name', ItemsOnly items ∧ PlusBehindNumber false items ∧
      charsAll items ++ String.toList name' = run ++ name.toList ∧
      Reads (run ++ (name.toList ++ '(' :: t)) (items ++ .call name' args true :: ns) rest := by
  by_cases hall : ∀ c ∈ run, isNameChar c = true
  · have hname' : ∀ c ∈ (String.ofList (run ++ name.toList)).toList, isNameChar c = true := by
      rw [String.toList_ofList]
      exact List.forall_mem_append.2 ⟨hall, hname⟩
    have hurl' : Text.sameIgnoringCase (String.ofList (run ++ name.toList)) "url" = false := by
      by_cases hnil : run = []
      · rwa [hnil, List.nil_append, String.ofList_toList]
      · rw [hempty hnil]
        simpa using hrun.sameIgnoringCase_eq hnil
    have hreads := Reads.call (.opening hname' hurl') hargs hns
    rw [String.toList_ofList, List.append_assoc] at hreads
    exact ⟨[], _, List.forall_mem_nil _, trivial, String.toList_ofList, hreads⟩
  · have hne : run ≠ [] := by
      rintro rfl
      exact hall (List.forall_mem_nil _)
    -- Some character of the run is none of a name, so the parenthesis opens a call of its own.
    obtain rfl := hempty hne
    have hreads := Reads.call (.opening hname hurl) hargs hns
    obtain ⟨items, hitems, hreads⟩ := exists_reads_run hrun.wordChars
      (Text.stops_cons.2 (by decide)) (fun _ _ => by simpa using hall) hreads
    exact ⟨items, _, hitems.itemsOnly, hrun.plus hitems, by rw [hitems.chars], hreads⟩

/-- The nodes `ms` are read for the nodes `ns` with a run before them, and `cs` is the text of `ns`
as they have been rewritten. Nothing of the text is lost, a number with a plus sign stands behind
another one, and gaps are where they were: if there were only gaps that are needed, there are no
others now. -/
structure Rejoins (run : List Char) (ns : List Node) (cs : List Char) (ms : List Node) :
    Prop where
  chars : charsAll ms = run ++ cs
  plus : PlusBehindNumber false ms
  spaced : ∀ {joins}, Spaced (joins || !run.isEmpty) ns → Spaced joins ms
  starts : startsWithItem ms = (!run.isEmpty || startsWithItem ns)

section Rejoins

variable {run cs : List Char} {seen : Option Char} {items ns ms : List Node}

/-- At the end of the nodes the pending run is read as its items. -/
theorem RunItems.rejoins_nil (hitems : RunItems run items) (hrun : IsPending run seen) :
    Rejoins run [] [] (items ++ []) where
  chars := by rw [charsAll_append, hitems.chars]; rfl
  plus := (hrun.plus hitems).append trivial
  spaced _ := hitems.itemsOnly.spaced_append trivial
  starts := by rw [hitems.itemsOnly.startsWithItem_append, hitems.isEmpty_eq]

/-- A space ends the pending run. -/
theorem Rejoins.space (h : Rejoins [] ns cs ms) (hitems : RunItems run items)
    (hrun : IsPending run seen) :
    Rejoins run (.space :: ns) (' ' :: cs) (items ++ .space :: ms) where
  chars := by simp [hitems.chars, h.chars, Node.chars]
  plus := by
    have hms : PlusBehindNumber false (.space :: ms) := h.plus
    exact (hrun.plus hitems).append hms
  spaced hns := by
    obtain ⟨hjoins, hstarts, hns⟩ := hns
    exact hitems.itemsOnly.spaced_append
      ⟨hitems.isEmpty_eq ▸ hjoins, h.starts.trans hstarts, h.spaced hns⟩
  starts := by
    rw [hitems.itemsOnly.startsWithItem_append, hitems.isEmpty_eq]
    rfl

theorem Rejoins.divider {mark : Char} (h : Rejoins [] ns cs ms) (hitems : RunItems run items)
    (hrun : IsPending run seen) :
    Rejoins run (.divider mark :: ns) (mark :: cs) (items ++ .divider mark :: ms) where
  chars := by simp [hitems.chars, h.chars, Node.chars]
  plus := by
    have hms : PlusBehindNumber false (.divider mark :: ms) := h.plus
    exact (hrun.plus hitems).append hms
  spaced {_} hns := by
    have hrest : Spaced false ns := hns
    have hms : Spaced false ms := h.spaced hrest
    exact hitems.itemsOnly.spaced_append hms
  starts := by
    rw [hitems.itemsOnly.startsWithItem_append, hitems.isEmpty_eq]
    rfl

/-- A word and the run before it. -/
theorem Rejoins.word {text : String} {text' : List Char} (h : Rejoins [] ns cs ms)
    (htext : IsWord text') (hitems : RunItems (run ++ text') items) (hrun : IsPending run seen) :
    Rejoins run (.word text :: ns) (text' ++ cs) (items ++ ms) where
  chars := by simp [hitems.chars, h.chars]
  plus := (hrun.plus_word htext hitems).append h.plus
  spaced hns := by
    have hne : (run ++ text').isEmpty = false := by simp [htext.ne_nil]
    refine hitems.itemsOnly.spaced_append ?_
    rw [hitems.isEmpty_eq, hne]
    exact h.spaced (by simpa using hns.2)
  starts := by
    rw [hitems.itemsOnly.startsWithItem_append, hitems.isEmpty_eq]
    simp [htext.ne_nil, startsWithItem, isItem]

/-- A string or a call and the run before it. -/
theorem Rejoins.item {n m : Node} {text : List Char} (h : Rejoins [] ns cs ms)
    (hitems : ItemsOnly items) (hplus : PlusBehindNumber false items)
    (hchars : charsAll items ++ m.chars = run ++ text) (hn : n.isItem = true)
    (hm : ∀ d, m ≠ .number d) (hmitem : m.isItem = true) (hnode : SpacedNode n → SpacedNode m) :
    Rejoins run (n :: ns) (text ++ cs) (items ++ m :: ms) where
  chars := by rw [charsAll_append, charsAll_cons, ← List.append_assoc, hchars, h.chars]; simp
  plus := by
    refine hplus.append ?_
    cases m with
    | number d => exact absurd rfl (hm d)
    | _ => exact h.plus
  spaced hns := by
    obtain ⟨hspaced, hns⟩ := (spaced_item hn).1 hns
    exact hitems.spaced_append ((spaced_item hmitem).2 ⟨hnode hspaced, h.spaced hns⟩)
  starts := by
    have hns : startsWithItem (n :: ns) = true := hn
    have hms : startsWithItem (m :: ms) = true := hmitem
    rw [hitems.startsWithItem_append, hns, hms, Bool.or_true, Bool.or_true]

end Rejoins

/-- The text of nodes that have been rewritten can be read, whatever has run on into what. -/
theorem exists_reads_rejoins (hf : Shows f) (dash inMath : Bool) {ns : List Node}
    {rest run : List Char} (h : AllFit (lookahead rest) ns) (hclosed : anyUnclosed ns = false)
    (hrest : IsEnd rest) (hrun : IsPending run (lookahead (charsAll ns ++ rest))) :
    ∃ ms, Reads (run ++ (charsAll (ns.map (rewriteNode f dash inMath)) ++ rest)) ms rest ∧
      Rejoins run ns (charsAll (ns.map (rewriteNode f dash inMath))) ms := by
  -- Numbers are put off until something ends the run that they are part of.
  induction ns using listInduction generalizing dash inMath rest run with
  | nil =>
    obtain ⟨items, hitems, hreads⟩ :=
      exists_reads_of_ends hrun.wordChars (.done hrest.readLexeme_eq) (ends_of_isEnd hrest)
    exact ⟨_, hreads, hitems.rejoins_nil hrun⟩
  | cons n ns hargs ih =>
    obtain ⟨hn, hns⟩ := h
    obtain ⟨hclosedNode, hclosedRest⟩ := Bool.or_eq_false_iff.1 hclosed
    have hseen := (seenAlike_rewriteNode hf dash inMath hns).or (lookahead rest)
    rw [← lookahead_append, ← lookahead_append] at hseen
    rw [← lookahead_append] at hn
    obtain ⟨ms, hms, hjoins⟩ := ih dash inMath hns hclosedRest hrest (isPending_nil _)
    rw [List.nil_append] at hms
    rw [List.map_cons, charsAll_cons, List.append_assoc]
    generalize htail : charsAll (ns.map (rewriteNode f dash inMath)) ++ rest = tail at hseen hms ⊢
    cases n with
    | word text =>
      have hsame := hseen.eq_of_not_isWordChar hn.2.1
      have hword := isWord_wordText dash hn.1
      have hwords : ∀ c ∈ run ++ (wordText dash text).toList, isWordChar c = true :=
        List.forall_mem_append.2 ⟨hrun.wordChars, hword.chars⟩
      have hopened : NotOpened (run ++ (wordText dash text).toList) tail := by
        refine notOpened_iff.2 fun hopen => ?_
        obtain ⟨c, hc, hname⟩ := exists_not_isNameChar_wordText dash (hn.2.2 (hsame ▸ hopen))
        exact ⟨c, List.mem_append_right _ hc, hname⟩
      obtain ⟨items, hitems, hreads⟩ := exists_reads_run hwords
        (stops_isWordChar_iff.2 (hsame ▸ hn.2.1)) (fun _ => hopened) hms
      rw [rewriteNode_word, ← List.append_assoc]
      exact ⟨_, hreads, hjoins.word hword hitems hrun⟩
    | number d =>
      have hshown := hf inMath d hn.1
      obtain ⟨ms, hms, hjoins⟩ := ih dash inMath hns hclosedRest hrest
        (hrun.append_number hshown hn.2.1)
      have hpending : (run ++ (f inMath d).chars).isEmpty = false := by
        simp [hshown.chars_ne_nil]
      rw [htail, List.append_assoc] at hms
      rw [rewriteNode_number]
      refine ⟨ms, hms, ?_, hjoins.plus, fun hns => hjoins.spaced ?_, ?_⟩
      · rw [hjoins.chars, List.append_assoc]
        rfl
      · simpa [hpending] using hns.2
      · rw [hjoins.starts, hpending]
        exact (Bool.or_true _).symm
    | string quote content =>
      obtain ⟨quote', hquote', hcontent', hnode, -⟩ := doubleQuotedNode_string hn.1 hn.2
      have hfits : Fits (lookahead tail) (.string quote' content) := ⟨hquote', hcontent'⟩
      have hreads : Reads (chars (.string quote' content) ++ tail) (.string quote' content :: ms)
          rest := .leaf (hfits.lexes trivial) hms
      obtain ⟨items, hitems, hreads⟩ :=
        exists_reads_of_ends hrun.wordChars hreads (ends_quote hquote')
      rw [rewriteNode_string, hnode]
      exact ⟨_, hreads, hjoins.item hitems.itemsOnly (hrun.plus hitems) (by rw [hitems.chars]) rfl
        (by simp) rfl fun _ => trivial⟩
    | space =>
      have hfits : Fits (lookahead tail) .space := hseen.ne_space hn
      have hreads : Reads (chars .space ++ tail) (.space :: ms) rest :=
        .leaf (hfits.lexes trivial) hms
      obtain ⟨items, hitems, hreads⟩ :=
        exists_reads_of_ends hrun.wordChars hreads ends_space
      rw [rewriteNode_space]
      exact ⟨_, hreads, hjoins.space hitems hrun⟩
    | divider mark =>
      have hfits : Fits (lookahead tail) (.divider mark) := hn
      have hreads : Reads (chars (.divider mark) ++ tail) (.divider mark :: ms) rest :=
        .leaf (hfits.lexes trivial) hms
      obtain ⟨items, hitems, hreads⟩ :=
        exists_reads_of_ends hrun.wordChars hreads (ends_divider hn)
      rw [rewriteNode_divider]
      exact ⟨_, hreads, hjoins.divider hitems hrun⟩
    | call name args closed =>
      obtain ⟨rfl, hclosedArgs⟩ : closed = true ∧ anyUnclosed args = false := by
        simpa [unclosed] using hclosedNode
      have hempty := hrun.name_eq_empty hn.1
      by_cases hurl : Text.sameIgnoringCase name "url" = true
      · have hfits : Fits (lookahead tail) (.call name args true) := ⟨hn.1, by simp, hn.2.2⟩
        have hnil : run = [] := by
          by_cases hnil : run = []
          · exact hnil
          · rw [hempty hnil] at hurl
            exact absurd hurl (by decide)
        rw [rewriteNode_url hn hurl, hnil]
        have hitems : ItemsOnly [] := List.forall_mem_nil _
        exact ⟨_, .leaf (hfits.lexes hurl) hms,
          hjoins.item hitems trivial rfl rfl (by simp) rfl id⟩
      · obtain ⟨hname, -, hbody⟩ := hn
        rw [rewriteNode_call]
        rw [if_neg hurl] at hbody
        have hfit : AllFit (lookahead (')' :: tail)) args := hbody
        obtain ⟨args', hargs', hjoins'⟩ := hargs name args true rfl false (mathIn inMath name) hfit
          hclosedArgs (.inr rfl) (isPending_nil _)
        obtain ⟨items, name', hitems, hplus, hchars, hreads⟩ :=
          exists_reads_call hrun hname (by simpa using hurl) hempty hargs' hms
        have hspaced : Spaced false args → Spaced false args' := fun hargs => hjoins'.spaced hargs
        refine ⟨items ++ .call name' args' true :: ms, by simpa [chars] using hreads,
          hjoins.item hitems hplus ?_ rfl (by simp) rfl hspaced⟩
        rw [chars, chars, hjoins'.chars, List.append_assoc, List.append_assoc, ← List.append_assoc,
          hchars]
        simp

/-- The text of nodes that have been rewritten can be read. -/
theorem exists_reads_rewriteNode (hf : Shows f) (dash inMath : Bool) {ns : List Node}
    {rest run : List Char} (h : AllFit (lookahead rest) ns) (hclosed : anyUnclosed ns = false)
    (hrest : IsEnd rest) (hrun : IsPending run (lookahead (charsAll ns ++ rest))) :
    ∃ ms, Reads (run ++ (charsAll (ns.map (rewriteNode f dash inMath)) ++ rest)) ms rest := by
  obtain ⟨ms, hms, -⟩ := exists_reads_rejoins hf dash inMath h hclosed hrest hrun
  exact ⟨ms, hms⟩

end Node

end AtomicCss
