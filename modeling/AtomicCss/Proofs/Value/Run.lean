import AtomicCss.Proofs.Value.Spacing

/-!
# Runs of characters of words

Characters of words that stand side by side are read as numbers and words. A number takes the front
of such a run as long as what is left does not continue a word, so a number behind another one has
a plus sign.

* `Node.anyNumber`: whether there is a number with some property, at any depth.
* `Node.PlusBehindNumber`: every number with a plus sign stands right behind another number.
* `Node.RunItems`: what a run is read as.
* `Node.exists_allFit_run`: a run is read as something if it is not the name of a call.
-/

namespace AtomicCss.Node

variable {next : Option Char}

/-! ### Numbers at any depth -/

/-- Whether the arguments of a call are arguments of a calculation. -/
def mathIn (inMath : Bool) (name : String) : Bool :=
  inMath || mathCalls.contains (Text.asciiLower name)

mutual

/-- Whether the node is a number as `p` says or holds one. -/
def numberIn (p : Bool → Dimension → Bool) (inMath : Bool) : Node → Bool
  | .number d => p inMath d
  | .call name args _ => anyNumber p (mathIn inMath name) args
  | _ => false

/-- Whether at any depth there is a number as `p` says. The first argument of `p` says whether it is
an argument of a calculation. -/
def anyNumber (p : Bool → Dimension → Bool) (inMath : Bool) : List Node → Bool
  | [] => false
  | n :: ns => numberIn p inMath n || anyNumber p inMath ns

end

theorem anyNumber_append (p : Bool → Dimension → Bool) (inMath : Bool) (ns ms : List Node) :
    anyNumber p inMath (ns ++ ms) = (anyNumber p inMath ns || anyNumber p inMath ms) := by
  induction ns with
  | nil => rfl
  | cons n ns ih => rw [List.cons_append, anyNumber, anyNumber, ih, Bool.or_assoc]

/-- Spaces are no numbers. -/
theorem anyNumber_collapse (p : Bool → Dimension → Bool) (ns : List Node)
    (inMath joins pending : Bool) :
    anyNumber p inMath (collapse joins pending ns) = anyNumber p inMath ns := by
  induction ns using listInduction generalizing inMath joins pending with
  | nil => rfl
  | cons n ns hargs ih =>
    by_cases hitem : n.isItem = true
    · have hnode : numberIn p inMath (collapseNode n) = numberIn p inMath n := by
        cases n with
        | call name args closed => exact hargs name args closed rfl _ false false
        | _ => rfl
      rw [collapse_item hitem]
      split <;> simp [anyNumber, numberIn, hnode, ih]
    · cases n with
      | space => exact ih ..
      | divider mark => exact ih ..
      | _ => exact absurd rfl hitem

/-! ### Nodes side by side -/

theorem seenAs_of_isWordChar {c : Char} (h : isWordChar c = true) : seenAs c = c := by
  rcases seenAs_cases c with ⟨hgap, -⟩ | ⟨hquote, -⟩ | ⟨-, -, hseen⟩
  · rcases isGap_cases hgap with rfl | rfl | rfl | rfl <;> exact absurd h (by decide)
  · rcases isQuote_cases hquote with rfl | rfl <;> exact absurd h (by decide)
  · exact hseen

theorem isNameChar_of_continuesWord {c : Char} (h : continuesWord [c] = false) :
    isNameChar c = false := by
  simp_all [continuesWord]

/-- Tokens may stand before other tokens if they end where those begin. -/
theorem AllFit.append {ns ms : List Node} (h : AllFit ((lookahead (charsAll ms)).or next) ns)
    (hms : AllFit next ms) : AllFit next (ns ++ ms) := by
  induction ns with
  | nil => exact hms
  | cons n ns ih =>
    have hn : Fits ((lookahead (charsAll (ns ++ ms))).or next) n := by
      rw [charsAll_append, lookahead_append, Option.or_assoc]
      exact h.1
    exact ⟨hn, ih h.2⟩

/-- Tokens without arguments are read in front of what can be read. -/
theorem AllFit.reads_append {ns ms : List Node} {t rest : List Char}
    (h : AllFit (lookahead t) ns) (hleaf : ∀ n ∈ ns, n.IsLeaf) (hms : Reads t ms rest) :
    Reads (charsAll ns ++ t) (ns ++ ms) rest := by
  induction ns with
  | nil => exact hms
  | cons n ns ih =>
    obtain ⟨hn, hns⟩ := List.forall_mem_cons.1 hleaf
    have hfits : n.Fits (lookahead (charsAll ns ++ t)) := by
      rw [lookahead_append]
      exact h.1
    rw [charsAll_cons, List.append_assoc]
    exact .leaf (hfits.lexes hn) (ih h.2 hns)

/-- Items side by side, with only gaps that are needed in their arguments. -/
def ItemsOnly (items : List Node) : Prop :=
  ∀ n ∈ items, n.isItem = true ∧ SpacedNode n

/-- Items may be put in front of nodes that are spaced. -/
theorem ItemsOnly.spaced_append {joins : Bool} {items ms : List Node} (h : ItemsOnly items)
    (hms : Spaced (joins || !items.isEmpty) ms) : Spaced joins (items ++ ms) := by
  induction items generalizing joins with
  | nil => simpa using hms
  | cons n items ih =>
    obtain ⟨⟨hitem, hnode⟩, hitems⟩ := List.forall_mem_cons.1 h
    exact (spaced_item hitem).2 ⟨hnode, ih hitems (by simpa using hms)⟩

theorem ItemsOnly.startsWithItem_append {items : List Node} (h : ItemsOnly items)
    (ms : List Node) :
    startsWithItem (items ++ ms) = (!items.isEmpty || startsWithItem ms) := by
  cases items with
  | nil => rfl
  | cons n items => exact (h n List.mem_cons_self).1

/-- Every number with a plus sign stands right behind a number; `behind` says whether there is one
before the nodes. -/
def PlusBehindNumber (behind : Bool) : List Node → Prop
  | [] => True
  | .number d :: ns =>
    (d.number.toList.head? = some '+' → behind = true) ∧ PlusBehindNumber true ns
  | _ :: ns => PlusBehindNumber false ns

theorem PlusBehindNumber.of_false {ns : List Node} (h : PlusBehindNumber false ns)
    (behind : Bool) : PlusBehindNumber behind ns := by
  cases ns with
  | nil => trivial
  | cons n ns =>
    cases n with
    | number d => exact ⟨fun hplus => absurd (h.1 hplus) (by simp), h.2⟩
    | _ => exact h

/-- Rows of items whose plus signs stand behind numbers may be put together. -/
theorem PlusBehindNumber.append {behind : Bool} {items ns : List Node}
    (hitems : PlusBehindNumber behind items) (hns : PlusBehindNumber false ns) :
    PlusBehindNumber behind (items ++ ns) := by
  induction items generalizing behind with
  | nil => exact hns.of_false behind
  | cons n items ih =>
    cases n with
    | number d => exact ⟨hitems.1, ih hitems.2⟩
    | _ =>
      have hrest : PlusBehindNumber false items := hitems
      exact ih hrest

/-! ### Runs -/

/-- What a run of characters of words is read as. A plus sign in front may be that of a number, and
then there is no number before it. -/
structure RunItems (run : List Char) (items : List Node) : Prop where
  cases : ∀ n ∈ items, (∃ d, n = .number d) ∨ ∃ text, n = .word text
  isEmpty_eq : items.isEmpty = run.isEmpty
  chars : charsAll items = run
  number : readNumberLexeme run ≠ none → ∃ d ns, items = .number d :: ns
  plus : ∀ {behind}, (run.head? = some '+' → behind = true ∨ readNumberLexeme run = none) →
    PlusBehindNumber behind items

/-- A run is read as items: it has no spaces and no dividers. -/
theorem RunItems.itemsOnly {run : List Char} {items : List Node} (h : RunItems run items) :
    ItemsOnly items := by
  intro n hn
  rcases h.cases n hn with ⟨d, rfl⟩ | ⟨text, rfl⟩
  · exact ⟨rfl, trivial⟩
  · exact ⟨rfl, trivial⟩

theorem RunItems.isLeaf {run : List Char} {items : List Node} (h : RunItems run items) :
    ∀ n ∈ items, n.IsLeaf := by
  intro n hn
  rcases h.cases n hn with ⟨d, rfl⟩ | ⟨text, rfl⟩
  · trivial
  · trivial

theorem runItems_nil : RunItems [] [] where
  cases := List.forall_mem_nil _
  isEmpty_eq := rfl
  chars := rfl
  number h := absurd rfl h
  plus _ := trivial

/-- A run without a number in front is a word. -/
theorem runItems_word {run : List Char} (hne : run ≠ []) (hnumber : readNumberLexeme run = none) :
    RunItems run [.word (String.ofList run)] where
  cases := List.forall_mem_singleton.2 (.inr ⟨_, rfl⟩)
  isEmpty_eq := by simpa using hne
  chars := by simp [Node.chars]
  number h := absurd hnumber h
  plus _ := trivial

/-- A number in front of a run. -/
theorem RunItems.cons_number {d : Dimension} {left : List Char} {items : List Node}
    (h : RunItems left items) (hd : d.IsWritten)
    (hread : readNumberLexeme (d.chars ++ left) ≠ none) :
    RunItems (d.chars ++ left) (.number d :: items) where
  cases := List.forall_mem_cons.2 ⟨.inl ⟨d, rfl⟩, h.cases⟩
  isEmpty_eq := by simp [hd.chars_ne_nil]
  chars := by rw [charsAll_cons, h.chars]; rfl
  number _ := ⟨d, items, rfl⟩
  plus hplus := by
    refine ⟨fun hhead => ?_, h.plus fun _ => .inl rfl⟩
    refine (hplus ?_).resolve_right hread
    obtain ⟨c, cs, hchars⟩ := List.exists_cons_of_ne_nil hd.number.ne_nil
    rw [Dimension.chars, hchars]
    rwa [hchars] at hhead

/-- A number in front of characters of words that do not continue it. -/
theorem fits_number_of_run {d : Dimension} {left : List Char} (hd : d.IsWritten)
    (hleft : ∀ c ∈ left, isWordChar c = true) (hcontinues : continuesWord left = false)
    (hpercent : d.unit = "" → Text.Stops (· == '%') left)
    (hnext : ∀ c ∈ next, isWordChar c = false)
    (hopened : next = some '(' → ∃ c ∈ d.chars ++ left, isNameChar c = false) :
    Fits ((lookahead left).or next) (.number d) := by
  cases left with
  | nil =>
    refine ⟨hd, fun c hc => continuesWord_of_not_isWordChar (hnext c hc), fun hopen => ?_,
      fun hsign => ?_⟩
    · simpa using hopened hopen
    · exact absurd (hnext _ hsign) (by decide)
  | cons c left =>
    -- The first character that is left is a word character, and it is what the number sees.
    have hseen : (lookahead (c :: left)).or next = some c := by
      rw [lookahead_cons, seenAs_of_isWordChar (hleft c List.mem_cons_self)]
      rfl
    rw [hseen]
    refine ⟨hd, ?_, ?_, ?_⟩
    · rintro _ ⟨⟩
      exact hcontinues
    · rintro ⟨⟩
      exact absurd (hleft '(' List.mem_cons_self) (by decide)
    · rintro ⟨⟩ hunit
      exact absurd (Text.stops_cons.1 (hpercent hunit)) (by decide)

/-- A run of characters of words is read as numbers and words, if it is not the name of a call. -/
theorem exists_allFit_run {run : List Char} (hrun : ∀ c ∈ run, isWordChar c = true)
    (hnext : ∀ c ∈ next, isWordChar c = false)
    (hopened : run ≠ [] → next = some '(' → ∃ c ∈ run, isNameChar c = false) :
    ∃ items, RunItems run items ∧ AllFit next items := by
  -- A number takes the front of the run; what is left is a shorter run that begins with no name.
  induction hlength : run.length using Nat.strongRecOn generalizing run with
  | ind length ih =>
    by_cases hnil : run = []
    · subst hnil
      exact ⟨[], runItems_nil, trivial⟩
    cases hnumber : readNumberLexeme run with
    | none =>
      have hword : Fits next (.word (String.ofList run)) := by
        rw [Fits, String.toList_ofList]
        exact ⟨⟨hnil, hrun, hnumber⟩, hnext, hopened hnil⟩
      exact ⟨_, runItems_word hnil hnumber, hword, trivial⟩
    | some read =>
      obtain ⟨l, left⟩ := read
      obtain ⟨d, -, hd, rfl, hcontinues, hpercent⟩ := exists_number_of_readNumberLexeme hnumber
      have hleft : ∀ c ∈ left, isWordChar c = true := fun c hc =>
        hrun c (List.mem_append_right _ hc)
      have hshorter : left.length < length := by
        have hpos := List.length_pos_iff.2 hd.chars_ne_nil
        rw [← hlength, List.length_append]
        omega
      -- What is left does not begin like a name, so no parenthesis takes it for one.
      have hopened' : left ≠ [] → next = some '(' → ∃ c ∈ left, isNameChar c = false := by
        intro hne _
        obtain ⟨c, cs, rfl⟩ := List.exists_cons_of_ne_nil hne
        exact ⟨c, List.mem_cons_self, isNameChar_of_continuesWord hcontinues⟩
      obtain ⟨items, hitems, hfits⟩ := ih left.length hshorter hleft hopened' rfl
      refine ⟨.number d :: items, hitems.cons_number hd (by simp [hnumber]), ?_, hfits⟩
      rw [hitems.chars]
      exact fits_number_of_run hd hleft hcontinues hpercent hnext (hopened hnil)

end AtomicCss.Node
