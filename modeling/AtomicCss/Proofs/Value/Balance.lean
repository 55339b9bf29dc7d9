import AtomicCss.Proofs.Value.Idempotence

/-!
# Balanced parentheses

The reader never refuses a call for its missing parenthesis. It stops at a closing parenthesis that
belongs to no call, and a call that the text ends in is marked and refused later. In a text without
strings and addresses, in which parentheses could stand for themselves, this comes to counting: the
value is accepted if and only if no closing parenthesis comes too early and none is missing.

* `Text.Nested`, `Text.Balanced`: no closing parenthesis comes too early, and none is missing
  either.
* `IsPlain`: texts in which every parenthesis counts.
* `Reads.nested`: what has been read is nested, and closed unless a call is not.
* `normalValue_balanced`: balanced values are accepted, and what is wrong with all others.
-/

namespace AtomicCss

namespace Text

/-! ### Counting parentheses -/

/-- No prefix has more closing parentheses than opening ones. -/
def Nested (cs : List Char) : Prop :=
  ∀ i, (cs.take i).count ')' ≤ (cs.take i).count '('

/-- No closing parenthesis comes too early, and none is missing. -/
def Balanced (cs : List Char) : Prop :=
  Nested cs ∧ Closed cs

theorem nested_nil : Nested [] := by
  simp [Nested]

theorem Nested.count_le {cs : List Char} (h : Nested cs) : cs.count ')' ≤ cs.count '(' := by
  simpa using h cs.length

theorem Nested.append {cs ds : List Char} (hcs : Nested cs) (hds : Nested ds) :
    Nested (cs ++ ds) := by
  intro i
  rw [List.take_append, List.count_append, List.count_append]
  exact Nat.add_le_add (hcs i) (hds _)

theorem Nested.opened {cs : List Char} (h : Nested cs) : Nested ('(' :: cs) := by
  intro i
  cases i with
  | zero => simp
  | succ i => simpa using Nat.le_succ_of_le (h i)

/-- The parenthesis at the end closes the one at the beginning, at the earliest. -/
theorem Nested.enclosed {cs : List Char} (h : Nested cs) : Nested ('(' :: (cs ++ [')'])) := by
  intro i
  cases i with
  | zero => simp
  | succ i =>
    have hlast : (([')'] : List Char).take (i - cs.length)).count ')' ≤ 1 :=
      List.count_le_length.trans (List.length_take_le' _ _)
    have hcs := h i
    simp only [List.take_succ_cons, List.take_append, List.count_cons, List.count_append]
    simp
    omega

/-- A closing parenthesis right behind characters whose parentheses are closed comes too early. -/
theorem not_nested_of_closed {cs : List Char} (h : Closed cs) (t : List Char) :
    ¬ Nested (cs ++ ')' :: t) := by
  intro hnested
  have hle := hnested (cs.length + 1)
  rw [List.take_length_add_append, List.count_append, List.count_append, h] at hle
  simp at hle

theorem nested_of_notMem {cs : List Char} (h : ')' ∉ cs) : Nested cs := by
  intro i
  rw [List.count_eq_zero_of_not_mem fun hmem => h (List.mem_of_mem_take hmem)]
  exact Nat.zero_le _

theorem closed_of_notMem {cs : List Char} (hopening : '(' ∉ cs) (hclosing : ')' ∉ cs) :
    Closed cs := by
  rw [Closed, List.count_eq_zero_of_not_mem hopening, List.count_eq_zero_of_not_mem hclosing]

theorem occursIn_iff {needle cs : List Char} : occursIn needle cs = true ↔ needle <:+: cs := by
  induction cs with
  | nil => simp [occursIn]
  | cons c cs ih => rw [occursIn, Bool.or_eq_true, List.isPrefixOf_iff_prefix, ih,
      List.infix_cons_iff]

end Text

open Text (Nested Closed)

/-! ### Texts in which every parenthesis counts -/

/-- There are no quotes, no addresses, and no blanks other than those of gaps. -/
structure IsPlain (cs : List Char) : Prop where
  blank : ∀ c ∈ cs, Text.isBlank c = true → isGap c = true
  quote : ∀ c ∈ cs, isQuote c = false
  url : Text.occursIn "url(".toList (cs.map Char.toLower) = false

theorem IsPlain.of_suffix {cs ds : List Char} (h : IsPlain ds) (hcs : cs <:+ ds) :
    IsPlain cs where
  blank c hc := h.blank c (hcs.subset hc)
  quote c hc := h.quote c (hcs.subset hc)
  url := by
    have hnot := h.url
    rw [Bool.eq_false_iff, Ne, Text.occursIn_iff] at hnot ⊢
    exact fun hurl => hnot (hurl.trans (hcs.map Char.toLower).isInfix)

/-- There is no call of `url`. -/
theorem IsPlain.sameIgnoringCase_eq {name : String} {t : List Char}
    (h : IsPlain (name.toList ++ '(' :: t)) : Text.sameIgnoringCase name "url" = false := by
  cases hurl : Text.sameIgnoringCase name "url" with
  | false => rfl
  | true =>
    have hname : name.toList.map Char.toLower = "url".toList := by
      rw [← Text.toList_asciiLower, beq_iff_eq.1 hurl]
      decide
    have hoccurs :
        Text.occursIn "url(".toList ((name.toList ++ '(' :: t).map Char.toLower) = true := by
      rw [Text.occursIn_iff, List.map_append, hname]
      exact ⟨[], t.map Char.toLower, rfl⟩
    rw [h.url] at hoccurs
    cases hoccurs

/-- With every character but a closing parenthesis a token begins. -/
theorem IsPlain.isEnd {cs : List Char} (h : IsPlain cs) (hread : readLexeme cs = none) :
    IsEnd cs := by
  cases cs with
  | nil => exact .inl rfl
  | cons c cs =>
    refine .inr ?_
    by_contra hclosing
    have hne : c ≠ ')' := fun heq => hclosing (heq ▸ rfl)
    have hquote := h.quote c List.mem_cons_self
    by_cases hopening : c = '('
    · subst hopening
      have hlexes : Lexes ("".toList ++ '(' :: cs) (.opening "") cs :=
        .opening (by simp) (by decide)
      exact hlexes.readLexeme_ne_none hread
    cases hgap : isGap c with
    | true => simp [readLexeme, hgap] at hread
    | false =>
      cases hmark : isDividerMark c with
      | true => simp [readLexeme, hgap, hmark] at hread
      | false =>
        -- In a plain text every blank is part of a gap, and this is no gap.
        have hblank : Text.isBlank c = false := by
          cases hblank : Text.isBlank c with
          | false => rfl
          | true => rw [h.blank c List.mem_cons_self hblank] at hgap; cases hgap
        have hword : isWordChar c = true := by
          simp [isWordChar, hblank, hmark, hquote, hopening, hne]
        simp [readLexeme_eq_orElse (.inl hword), readWord, hword] at hread

/-- A token that is complete has no parentheses. -/
theorem Lexes.exists_chars {cs rest : List Char} {n : Node} (h : Lexes cs (.leaf n) rest)
    (hplain : IsPlain cs) :
    ∃ token, cs = token ++ rest ∧ '(' ∉ token ∧ ')' ∉ token ∧ n.unclosed = false := by
  have hwords : ∀ {token : List Char}, (∀ c ∈ token, isWordChar c = true) →
      '(' ∉ token ∧ ')' ∉ token := fun htoken =>
    ⟨fun hmem => absurd (htoken _ hmem) (by decide), fun hmem => absurd (htoken _ hmem) (by decide)⟩
  cases h with
  | space gap _ hgap =>
    exact ⟨gap, rfl, fun hmem => absurd (hgap _ hmem) (by decide),
      fun hmem => absurd (hgap _ hmem) (by decide), rfl⟩
  | @divider mark _ hmark =>
    have hcases : mark = ',' ∨ mark = '/' := by simpa [isDividerMark] using hmark
    refine ⟨[mark], rfl, ?_, ?_, rfl⟩ <;> rcases hcases with rfl | rfl <;> decide
  | @string quote _ _ hquote =>
    rw [hplain.quote quote (by simp)] at hquote
    cases hquote
  | url _ _ hurl | urlUnclosed _ hurl =>
    rw [hplain.sameIgnoringCase_eq] at hurl
    cases hurl
  | number hd => exact ⟨_, rfl, (hwords hd.wordChars).1, (hwords hd.wordChars).2, rfl⟩
  | word htext => exact ⟨_, rfl, (hwords htext.chars).1, (hwords htext.chars).2, rfl⟩

/-! ### Reading -/

open Node (anyUnclosed)

/-- The parentheses of a text that has been read: none comes too early, and if one is missing then
there is nothing left. -/
structure Nests (read rest : List Char) (ns : List Node) : Prop where
  nested : Nested read
  closed : anyUnclosed ns = false → Closed read
  unclosed : anyUnclosed ns = true → rest = [] ∧ ¬ Closed read

/-- The step of the reading: a token whose own parentheses match adds nothing. -/
theorem Nests.of_append {token read rest : List Char} {n : Node} {ns : List Node}
    (h : Nests read rest ns) (hnested : Nested token) (hclosed : Closed token)
    (hn : n.unclosed = false) : Nests (token ++ read) rest (n :: ns) where
  nested := hnested.append h.nested
  closed hns := by
    rw [anyUnclosed, hn, Bool.false_or] at hns
    exact (Text.closed_append hclosed).2 (h.closed hns)
  unclosed hns := by
    rw [anyUnclosed, hn, Bool.false_or] at hns
    rw [Text.closed_append hclosed]
    exact h.unclosed hns

/-- A call that is closed. -/
theorem Nests.call {read t : List Char} {name : String} {args : List Node}
    (hname : ∀ c ∈ name.toList, isNameChar c = true) (hargs : Nests read (')' :: t) args) :
    Nested (name.toList ++ '(' :: (read ++ [')'])) ∧
      Closed (name.toList ++ '(' :: (read ++ [')'])) ∧
      (Node.call name args true).unclosed = false := by
  have hclosed : anyUnclosed args = false := by
    cases hunclosed : anyUnclosed args with
    | false => rfl
    | true => cases (hargs.unclosed hunclosed).1
  have hopening : '(' ∉ name.toList := fun hmem => absurd (hname _ hmem) (by decide)
  have hclosing : ')' ∉ name.toList := fun hmem => absurd (hname _ hmem) (by decide)
  refine ⟨(Text.nested_of_notMem hclosing).append hargs.nested.enclosed, ?_,
    by rw [Node.unclosed, hclosed]; rfl⟩
  have hread : read.count '(' = read.count ')' := hargs.closed hclosed
  rw [Text.closed_append (Text.closed_of_notMem hopening hclosing), Closed]
  simpa using hread

/-- A call that goes on to the end. -/
theorem Nests.unclosedCall {read : List Char} {name : String} {args : List Node}
    (hname : ∀ c ∈ name.toList, isNameChar c = true) (hargs : Nests read [] args) :
    Nests (name.toList ++ '(' :: read) [] [.call name args false] := by
  have hopening : '(' ∉ name.toList := fun hmem => absurd (hname _ hmem) (by decide)
  have hclosing : ')' ∉ name.toList := fun hmem => absurd (hname _ hmem) (by decide)
  refine ⟨(Text.nested_of_notMem hclosing).append hargs.nested.opened, by rintro ⟨⟩,
    fun _ => ⟨rfl, ?_⟩⟩
  rw [Text.closed_append (Text.closed_of_notMem hopening hclosing), Closed]
  have hle := hargs.nested.count_le
  simp
  omega

/-- What has been read of a plain text. -/
theorem Reads.nested {cs rest : List Char} {ns : List Node} (h : Reads cs ns rest)
    (hplain : IsPlain cs) : IsEnd rest ∧ ∃ read, cs = read ++ rest ∧ Nests read rest ns := by
  induction h with
  | done hread =>
    exact ⟨hplain.isEnd hread, [], rfl, Text.nested_nil, fun _ => rfl, by rintro ⟨⟩⟩
  | leaf hl _ ih =>
    obtain ⟨token, rfl, hopening, hclosing, hn⟩ := hl.exists_chars hplain
    obtain ⟨hend, read, rfl, hnests⟩ := ih (hplain.of_suffix (List.suffix_append _ _))
    exact ⟨hend, token ++ read, by simp, hnests.of_append (Text.nested_of_notMem hclosing)
      (Text.closed_of_notMem hopening hclosing) hn⟩
  | @call cs t u rest name args ns hl hargs hns ihargs ihns =>
    cases hl with
    | opening hname hurl =>
      have ht : IsPlain t := hplain.of_suffix ⟨name.toList ++ ['('], by simp⟩
      obtain ⟨hend, read, rfl, hnests⟩ := ihargs ht
      rcases readClosing_cases u with ⟨v, rfl, hclosing⟩ | ⟨hne, hclosing⟩
      · rw [hclosing] at ihns ⊢
        obtain ⟨hend', read', rfl, hnests'⟩ := ihns (ht.of_suffix ⟨read ++ [')'], by simp⟩)
        obtain ⟨hnested, hclosed, hn⟩ := hnests.call hname
        exact ⟨hend', _, by simp, hnests'.of_append hnested hclosed hn⟩
      · -- Without a closing parenthesis the arguments have taken the rest of the text.
        obtain rfl := hend.resolve_right hne
        obtain ⟨rfl, rfl⟩ := hargs.eq_of_unclosed (hclosing ▸ hns)
        rw [hclosing]
        exact ⟨hend, _, by simp, hnests.unclosedCall hname⟩

/-- A plain text is read unless a closing parenthesis comes too early, and then all its calls are
closed if and only if as many parentheses are. -/
theorem parseValue_of_isPlain {s : String} (h : IsPlain s.toList) :
    (¬ Nested s.toList ∧ parseValue s = .error .unmatchedClosing) ∨
      (Nested s.toList ∧
        ∃ ns, parseValue s = .ok ns ∧ (anyUnclosed ns = false ↔ Closed s.toList)) := by
  obtain ⟨ns, rest, hread⟩ : ∃ ns rest, readNodes s.toList = (ns, rest) := ⟨_, _, rfl⟩
  obtain ⟨hend, read, hs, hnests⟩ := (readNodes_iff.1 hread).nested h
  rcases hend with rfl | hclosing
  · rw [List.append_nil] at hs
    have hparse : parseValue s = .ok ns := parseValue_eq_ok.2 (readNodes_iff.1 hread)
    rw [hs]
    refine .inr ⟨hnests.nested, ns, hparse, hnests.closed, fun hclosed => ?_⟩
    cases hunclosed : anyUnclosed ns with
    | false => rfl
    | true => exact absurd hclosed (hnests.unclosed hunclosed).2
  · obtain ⟨t, rfl⟩ := List.head?_eq_some_iff.1 hclosing
    refine .inl ⟨?_, by simp [parseValue, hread, ParseFailure.ofRest?]⟩
    have hclosed : anyUnclosed ns = false := by
      cases hunclosed : anyUnclosed ns with
      | false => rfl
      | true => cases (hnests.unclosed hunclosed).1
    rw [hs]
    exact Text.not_nested_of_closed (hnests.closed hclosed) t

/-- Let a value that is not blank have neither quotes nor addresses, and no blanks but those of
gaps. It is accepted if and only if its parentheses are balanced. Otherwise it is malformed: a
closing parenthesis comes too early, or else a call is not closed. -/
theorem normalValue_balanced {options : Options} {property raw : String}
    (hproperty : Property.textual.contains property = false)
    (hblank : Text.isBlankText raw = false) (hplain : IsPlain raw.toList) :
    ((∃ v, normalValue options property raw = .ok v) ↔ Text.Balanced raw.toList) ∧
    (¬ Nested raw.toList → normalValue options property raw =
      .error (.malformed property raw (.unreadable .unmatchedClosing))) ∧
    (Nested raw.toList → ¬ Closed raw.toList → normalValue options property raw =
      .error (.malformed property raw .unclosedCall)) := by
  rw [normalValue_of_readClosed hproperty hblank]
  rcases parseValue_of_isPlain hplain with ⟨hnested, hparse⟩ | ⟨hnested, ns, hparse, hclosed⟩
  · rw [readClosed_of_error hparse]
    exact ⟨⟨by rintro ⟨v, ⟨⟩⟩, fun h => absurd h.1 hnested⟩, fun _ => rfl,
      fun h => absurd h hnested⟩
  · rw [readClosed_of_ok hparse]
    cases hunclosed : anyUnclosed ns with
    | false =>
      have hbalanced := hclosed.1 hunclosed
      exact ⟨⟨fun _ => ⟨hnested, hbalanced⟩, fun _ => ⟨_, rfl⟩⟩, fun h => absurd hnested h,
        fun _ h => absurd hbalanced h⟩
    | true =>
      have hmissing : ¬ Closed raw.toList := fun h => by simp [hclosed.2 h] at hunclosed
      exact ⟨⟨by rintro ⟨v, ⟨⟩⟩, fun h => absurd h.2 hmissing⟩, fun h => absurd hnested h,
        fun _ _ => rfl⟩

/-- As many parentheses are closed as are opened, but one of them too early. -/
theorem normalValue_balanced_early :
    let raw := "curl (a, (b))) ("
    Closed raw.toList ∧ normalValue {} "width" raw =
      .error (.malformed "width" raw (.unreadable .unmatchedClosing)) := by
  intro raw
  have hblank : raw.toList.all (fun c => !Text.isBlank c || isGap c) = true := by decide
  have hquote : raw.toList.all (!isQuote ·) = true := by decide
  have hplain : IsPlain raw.toList :=
    ⟨fun c hc h => by simpa [h] using List.all_eq_true.1 hblank c hc,
      fun c hc => by simpa using List.all_eq_true.1 hquote c hc, by decide⟩
  have hearly : ¬ Nested raw.toList := fun h => absurd (h 14) (by decide)
  exact ⟨by decide, (normalValue_balanced (by decide) (by decide) hplain).2.1 hearly⟩

end AtomicCss
