import AtomicCss.Proofs.Value.Number

/-!
# The tokens of property values

The reader tries the kinds of tokens one after the other. Here the tokens are described by their
characters and by what may follow them, with no order between the kinds.

* `IsContent`, `IsWord`: the content of a string, and a word.
* `Lexes cs l rest`: the text `cs` is the token `l` followed by `rest`.
* `readLexeme_iff`: this is what the reader does.
-/

namespace AtomicCss

open Text (Stops)

theorem isGap_cases {c : Char} (h : isGap c = true) :
    c = ' ' ∨ c = '\t' ∨ c = '\r' ∨ c = '\n' := by
  simpa [isGap, or_assoc] using h

theorem isQuote_cases {c : Char} (h : isQuote c = true) : c = '\'' ∨ c = '"' := by
  simpa [isQuote] using h

/-! ### Strings and words -/

/-- The content of a string: a backslash protects the character behind it, and the quote itself
occurs only so. -/
inductive IsContent (quote : Char) : List Char → Prop where
  | nil : IsContent quote []
  | escape {c : Char} {cs : List Char} (h : IsContent quote cs) : IsContent quote ('\\' :: c :: cs)
  | plain {c : Char} {cs : List Char} (hc : c ≠ quote) (hescape : c ≠ '\\')
      (h : IsContent quote cs) : IsContent quote (c :: cs)

/-- What is read up to a quote is the content of a string. -/
theorem readQuoted_eq_some {quote : Char} {cs content rest : List Char}
    (h : readQuoted quote cs = some (content, rest)) :
    IsContent quote content ∧ cs = content ++ quote :: rest := by
  fun_induction readQuoted quote cs generalizing content with
  | case1 => cases h
  | case2 c cs ih =>
    obtain ⟨⟨content', rest'⟩, hread, heq⟩ := Option.map_eq_some_iff.1 h
    cases heq
    obtain ⟨hcontent, rfl⟩ := ih hread
    exact ⟨.escape hcontent, rfl⟩
  | case3 cs =>
    cases h
    exact ⟨.nil, rfl⟩
  | case4 c cs hshape hc ih =>
    obtain ⟨⟨content', rest'⟩, hread, heq⟩ := Option.map_eq_some_iff.1 h
    cases heq
    obtain ⟨hcontent, rfl⟩ := ih hread
    have hescape : c ≠ '\\' := by
      rintro rfl
      cases content' <;> exact hshape _ _ rfl rfl
    exact ⟨.plain hc hescape hcontent, rfl⟩

/-- The content of a string is read up to the quote behind it. -/
theorem IsContent.readQuoted {quote : Char} (hquote : quote ≠ '\\') {content : List Char}
    (h : IsContent quote content) (rest : List Char) :
    readQuoted quote (content ++ quote :: rest) = some (content, rest) := by
  have hstep : ∀ c cs, c ≠ '\\' → AtomicCss.readQuoted quote (c :: cs) =
      if c = quote then some ([], cs)
      else (AtomicCss.readQuoted quote cs).map fun r => (c :: r.1, r.2) :=
    fun c cs hc => AtomicCss.readQuoted.eq_3 quote c cs fun _ _ heq _ => hc heq
  induction h with
  | nil => rw [List.nil_append, hstep _ _ hquote, if_pos rfl]
  | escape h ih => simp [AtomicCss.readQuoted, ih]
  | plain hc hescape h ih =>
    rw [List.cons_append, hstep _ _ hescape, if_neg hc, ih]
    rfl

/-- A word: characters of words that do not begin with a number of their own. -/
structure IsWord (cs : List Char) : Prop where
  ne_nil : cs ≠ []
  chars : ∀ c ∈ cs, isWordChar c = true
  not_number : readNumberLexeme cs = none

/-! ### Tokens -/

/-- A parenthesis behind the characters would make them the name of a call. -/
def NotOpened (cs rest : List Char) : Prop :=
  '(' ∈ rest.head? → ∃ c ∈ cs, isNameChar c = false

/-- The text `cs` is the token `l` followed by `rest`. -/
inductive Lexes : List Char → Lexeme → List Char → Prop where
  | space (gap : List Char) {rest : List Char} (hne : gap ≠ []) (hgap : ∀ c ∈ gap, isGap c = true)
      (hrest : Stops isGap rest) : Lexes (gap ++ rest) (.leaf .space) rest
  | divider {mark : Char} {rest : List Char} (hmark : isDividerMark mark = true) :
      Lexes (mark :: rest) (.leaf (.divider mark)) rest
  | string {quote : Char} (content : String) (rest : List Char) (hquote : isQuote quote = true)
      (hcontent : IsContent quote content.toList) :
      Lexes (quote :: content.toList ++ quote :: rest) (.leaf (.string quote content)) rest
  | url {name body : String} (rest : List Char) (hname : ∀ c ∈ name.toList, isNameChar c = true)
      (hurl : Text.sameIgnoringCase name "url" = true) (hbody : ')' ∉ body.toList) :
      Lexes (name.toList ++ '(' :: (body.toList ++ ')' :: rest))
        (.leaf (.call name [.word body] true)) rest
  | urlUnclosed {name body : String} (hname : ∀ c ∈ name.toList, isNameChar c = true)
      (hurl : Text.sameIgnoringCase name "url" = true) (hbody : ')' ∉ body.toList) :
      Lexes (name.toList ++ '(' :: body.toList) (.leaf (.call name [.word body] false)) []
  | opening {name : String} {rest : List Char} (hname : ∀ c ∈ name.toList, isNameChar c = true)
      (hurl : Text.sameIgnoringCase name "url" = false) :
      Lexes (name.toList ++ '(' :: rest) (.opening name) rest
  | number {d : Dimension} {rest : List Char} (hd : d.IsWritten)
      (hrest : continuesWord rest = false) (hopened : NotOpened d.chars rest)
      (hpercent : d.unit = "" → Stops (· == '%') rest) :
      Lexes (d.chars ++ rest) (.leaf (.number d)) rest
  | word {text : String} {rest : List Char} (htext : IsWord text.toList)
      (hrest : Stops isWordChar rest) (hopened : NotOpened text.toList rest) :
      Lexes (text.toList ++ rest) (.leaf (.word text)) rest

/-- A call has a name, which is not that of an address. -/
theorem Lexes.opening_name {cs rest : List Char} {name : String}
    (h : Lexes cs (.opening name) rest) :
    (∀ c ∈ name.toList, isNameChar c = true) ∧ Text.sameIgnoringCase name "url" = false := by
  cases h with
  | opening hname hurl => exact ⟨hname, hurl⟩

/-! ### The reader finds the tokens -/

/-- No call is read where no parenthesis follows a name. -/
theorem NotOpened.readOpening {cs rest : List Char} (h : NotOpened cs rest)
    (hcs : ∀ c ∈ cs, isWordChar c = true) (hrest : Stops isNameChar rest) :
    readOpening (cs ++ rest) = none := by
  unfold AtomicCss.readOpening
  rw [Text.dropWhile_append_of_stops cs hrest]
  split
  · next t heq =>
    exfalso
    cases hdrop : cs.dropWhile isNameChar with
    | nil =>
      rw [hdrop, List.nil_append] at heq
      obtain ⟨c, hc, hname⟩ := h (by simp [heq])
      simp [List.dropWhile_eq_nil_iff.1 hdrop c hc] at hname
    | cons c ds =>
      rw [hdrop] at heq
      obtain ⟨rfl, -⟩ := List.cons.inj heq
      have hmem : '(' ∈ cs := (List.dropWhile_sublist isNameChar).subset (by simp [hdrop])
      exact absurd (hcs _ hmem) (by decide)
  · rfl

/-- A name and an opening parenthesis, and what is read behind them. -/
theorem readOpening_name (name : String) (hname : ∀ c ∈ name.toList, isNameChar c = true)
    (t : List Char) :
    readOpening (name.toList ++ '(' :: t) =
      if Text.sameIgnoringCase name "url" then
        some (.leaf (.call name [.word (String.ofList (t.takeWhile (· != ')')))]
          (readClosing (t.dropWhile (· != ')'))).1), (readClosing (t.dropWhile (· != ')'))).2)
      else some (.opening name, t) := by
  have hstops : Stops isNameChar ('(' :: t) := Text.stops_cons.2 (by decide)
  have hdrop : (name.toList ++ '(' :: t).dropWhile isNameChar = '(' :: t := by
    rw [List.dropWhile_append_of_pos hname, hstops.dropWhile]
  have htake : (name.toList ++ '(' :: t).takeWhile isNameChar = name.toList := by
    rw [List.takeWhile_append_of_pos hname, hstops.takeWhile, List.append_nil]
  simp only [readOpening, hdrop, htake, String.ofList_toList]

/-- A call is read only where a name stands in front of a parenthesis. -/
theorem exists_name_of_readOpening {cs : List Char} (h : readOpening cs ≠ none) :
    ∃ (name : String) (t : List Char),
      (∀ c ∈ name.toList, isNameChar c = true) ∧ cs = name.toList ++ '(' :: t := by
  unfold readOpening at h
  split at h
  · next t hdrop =>
    refine ⟨String.ofList (cs.takeWhile isNameChar), t, ?_, ?_⟩
    · intro c hc
      exact List.mem_takeWhile_imp (by simpa using hc)
    · rw [String.toList_ofList, ← hdrop, List.takeWhile_append_dropWhile]
  · exact absurd rfl h

/-- Where no call is read, no name stands in front of a parenthesis. -/
theorem notOpened_of_readOpening {cs rest : List Char} (h : readOpening (cs ++ rest) = none) :
    NotOpened cs rest := by
  intro hopen
  cases rest with
  | nil => cases hopen
  | cons c rest =>
    obtain rfl : c = '(' := Option.mem_some.1 hopen
    by_cases hall : ∀ c ∈ cs, isNameChar c = true
    · have hread := readOpening_name (String.ofList cs) (by simpa using hall) rest
      rw [String.toList_ofList, h] at hread
      split at hread <;> cases hread
    · simpa using hall

/-- The body of `url(` goes on to the first closing parenthesis or to the end. -/
theorem urlBody_cases (t : List Char) :
    (∃ rest, t.dropWhile (· != ')') = ')' :: rest) ∨
      t.dropWhile (· != ')') = [] ∧ t.takeWhile (· != ')') = t := by
  cases hdrop : t.dropWhile (· != ')') with
  | nil =>
    have ht := List.takeWhile_append_dropWhile (p := (· != ')')) (l := t)
    rw [hdrop, List.append_nil] at ht
    exact .inr ⟨rfl, ht⟩
  | cons c rest =>
    have hc := Text.stops_dropWhile (· != ')') t
    rw [hdrop, Text.stops_cons] at hc
    obtain rfl : c = ')' := by simpa using hc
    exact .inl ⟨rest, rfl⟩

/-- What is read as the opening of a call is such a token. -/
theorem readOpening_eq_some {cs rest : List Char} {l : Lexeme}
    (h : readOpening cs = some (l, rest)) : Lexes cs l rest := by
  obtain ⟨name, t, hname, rfl⟩ := exists_name_of_readOpening (h ▸ Option.some_ne_none _)
  rw [readOpening_name _ hname] at h
  split at h
  · next hurl =>
    have hbody : ')' ∉ (String.ofList (t.takeWhile (· != ')'))).toList := by
      intro hmem
      rw [String.toList_ofList] at hmem
      simpa using List.mem_takeWhile_imp hmem
    rcases urlBody_cases t with ⟨t', hdrop⟩ | ⟨hdrop, htake⟩
    · have ht : t = (String.ofList (t.takeWhile (· != ')'))).toList ++ ')' :: t' := by
        rw [String.toList_ofList, ← hdrop, List.takeWhile_append_dropWhile]
      rw [hdrop] at h
      cases h
      have hlexes := Lexes.url t' hname hurl hbody
      rwa [← ht] at hlexes
    · rw [hdrop] at h
      cases h
      have hlexes := Lexes.urlUnclosed hname hurl hbody
      rw [String.toList_ofList, htake] at hlexes
      rw [htake]
      exact hlexes
  · next hurl =>
    cases h
    exact .opening hname (by simpa using hurl)

/-- What is read as a number token is a number with its unit that ends where a word does. -/
theorem exists_number_of_readNumberLexeme {cs rest : List Char} {l : Lexeme}
    (h : readNumberLexeme cs = some (l, rest)) :
    ∃ d : Dimension, l = .leaf (.number d) ∧ d.IsWritten ∧ cs = d.chars ++ rest ∧
      continuesWord rest = false ∧ (d.unit = "" → Stops (· == '%') rest) := by
  unfold readNumberLexeme at h
  split at h
  · cases h
  · next d t hread =>
    obtain ⟨hd, rfl, hpercent⟩ := readDimension_eq_some hread
    split at h
    · cases h
    · next hcontinues =>
      cases h
      exact ⟨d, rfl, hd, rfl, by simpa using hcontinues, hpercent⟩

theorem readNumberLexeme_eq_some {cs rest : List Char} {l : Lexeme}
    (h : readNumberLexeme cs = some (l, rest)) (hopening : readOpening cs = none) :
    Lexes cs l rest := by
  obtain ⟨d, rfl, hd, rfl, hcontinues, hpercent⟩ := exists_number_of_readNumberLexeme h
  exact .number hd hcontinues (notOpened_of_readOpening hopening) hpercent

/-- A word in front of what is no part of it is a number if it is one by itself. -/
theorem readNumberLexeme_word {cs rest : List Char} (hne : cs ≠ [])
    (hrest : Stops isWordChar rest) :
    readNumberLexeme (cs ++ rest) =
      (readNumberLexeme cs).map fun (l, t) => (l, t ++ rest) := by
  have hcontinues : continuesWord rest = false := by
    cases rest with
    | nil => rfl
    | cons c rest =>
      have hc := Text.stops_cons.1 hrest
      have hname : isNameChar c = false := by
        cases h : isNameChar c with
        | false => rfl
        | true => rw [isWordChar_of_isNameChar h] at hc; cases hc
      have hpoint : c ≠ '.' := by
        rintro rfl
        exact absurd hc (by decide)
      simp [continuesWord, hname, hpoint]
  refine readNumberLexeme_append hne hcontinues fun _ _ _ => hrest.mono ?_
  intro c hc
  rw [beq_iff_eq.1 hc]
  decide

/-- What is read as a word is one, if it was read as nothing else before. -/
theorem readWord_eq_some {cs rest : List Char} {l : Lexeme} (h : readWord cs = some (l, rest))
    (hopening : readOpening cs = none) (hnumber : readNumberLexeme cs = none) :
    Lexes cs l rest := by
  unfold readWord at h
  split at h
  · cases h
  · next hne =>
    cases h
    have hcs :
        cs = (String.ofList (cs.takeWhile isWordChar)).toList ++ cs.dropWhile isWordChar := by
      rw [String.toList_ofList, List.takeWhile_append_dropWhile]
    have hrest := Text.stops_dropWhile isWordChar cs
    rw [hcs] at hopening hnumber
    have hword : IsWord (String.ofList (cs.takeWhile isWordChar)).toList := by
      refine ⟨by simpa using hne, fun c hc => List.mem_takeWhile_imp (by simpa using hc), ?_⟩
      rw [readNumberLexeme_word (by simpa using hne) hrest] at hnumber
      simpa using hnumber
    have hlexes := Lexes.word hword hrest (notOpened_of_readOpening hopening)
    rwa [← hcs] at hlexes

/-- A token that begins with a character of a word or with a parenthesis. -/
theorem readLexeme_eq_orElse {c : Char} {cs : List Char} (h : isWordChar c = true ∨ c = '(') :
    readLexeme (c :: cs) =
      (readOpening (c :: cs) <|> readNumberLexeme (c :: cs) <|> readWord (c :: cs)) := by
  have hgap : isGap c = false := by
    cases hc : isGap c with
    | false => rfl
    | true => rcases isGap_cases hc with rfl | rfl | rfl | rfl <;> exact absurd h (by decide)
  have hmark : isDividerMark c = false ∧ isQuote c = false := by
    rcases h with h | rfl
    · simp only [isWordChar, Bool.not_eq_true', Bool.or_eq_false_iff] at h
      exact ⟨h.1.1.1.2, h.2⟩
    · decide
  simp [readLexeme, hgap, hmark.1, hmark.2]

/-- What the reader takes for a token is one. -/
theorem Lexes.of_readLexeme {cs rest : List Char} {l : Lexeme}
    (h : readLexeme cs = some (l, rest)) : Lexes cs l rest := by
  cases cs with
  | nil => cases h
  | cons c cs =>
    rw [readLexeme] at h
    -- The reader looks at the first character before it tries the tokens of words.
    split at h
    · next hgap =>
      cases h
      have hall : ∀ d ∈ c :: cs.takeWhile isGap, isGap d = true := by
        intro d hd
        rcases List.mem_cons.1 hd with rfl | hd
        · exact hgap
        · exact List.mem_takeWhile_imp hd
      have hlexes := Lexes.space _ (List.cons_ne_nil _ _) hall (Text.stops_dropWhile isGap cs)
      rwa [List.cons_append, List.takeWhile_append_dropWhile] at hlexes
    split at h
    · next hmark =>
      cases h
      exact .divider hmark
    split at h
    · next hquote =>
      obtain ⟨⟨content, t⟩, hread, heq⟩ := Option.map_eq_some_iff.1 h
      cases heq
      obtain ⟨hcontent, rfl⟩ := readQuoted_eq_some hread
      have hlexes := Lexes.string (String.ofList content) rest hquote (by simpa using hcontent)
      rwa [String.toList_ofList] at hlexes
    · -- What is left to try is a call, a number and a word, in this order.
      cases hopening : readOpening (c :: cs) with
      | some read =>
        rw [hopening] at h
        cases h
        exact readOpening_eq_some hopening
      | none =>
        cases hnumber : readNumberLexeme (c :: cs) with
        | some read =>
          rw [hopening, hnumber] at h
          cases h
          exact readNumberLexeme_eq_some hnumber hopening
        | none =>
          rw [hopening, hnumber] at h
          exact readWord_eq_some h hopening hnumber

theorem readLexeme_name {name : String} (hname : ∀ c ∈ name.toList, isNameChar c = true)
    (t : List Char) :
    readLexeme (name.toList ++ '(' :: t) = readOpening (name.toList ++ '(' :: t) := by
  have hsome : (readOpening (name.toList ++ '(' :: t)).isSome = true := by
    rw [readOpening_name _ hname]
    split <;> rfl
  obtain ⟨read, hread⟩ := Option.isSome_iff_exists.1 hsome
  have horElse : readLexeme (name.toList ++ '(' :: t) =
      (readOpening (name.toList ++ '(' :: t) <|> readNumberLexeme (name.toList ++ '(' :: t) <|>
        readWord (name.toList ++ '(' :: t)) := by
    cases hchars : name.toList with
    | nil => exact readLexeme_eq_orElse (.inr rfl)
    | cons c cs =>
      exact readLexeme_eq_orElse (.inl (isWordChar_of_isNameChar (hname c (by simp [hchars]))))
  rw [horElse, hread]
  rfl

theorem Dimension.IsWritten.wordChars {d : Dimension} (h : d.IsWritten) :
    ∀ c ∈ d.chars, isWordChar c = true := by
  intro c hc
  have hname : ∀ c : Char, c.isAlphanum = true → isWordChar c = true :=
    fun c hc => isWordChar_of_isNameChar (isNameChar_of_isAlphanum hc)
  rcases List.mem_append.1 hc with hc | hc
  · rcases h.number.mem hc with hdigit | rfl | rfl | rfl
    · exact hname c (by simp [Char.isAlphanum, hdigit])
    all_goals decide
  · rcases h.unit with hunit | hunit
    · obtain rfl : c = '%' := by simpa [hunit] using hc
      decide
    · exact hname c (by simp [Char.isAlphanum, hunit c hc])

/-- Word characters are tried as a call, then as a number and last as a word. -/
theorem readLexeme_wordChars {cs t : List Char} (hne : cs ≠ [])
    (hcs : ∀ c ∈ cs, isWordChar c = true) :
    readLexeme (cs ++ t) =
      (readOpening (cs ++ t) <|> readNumberLexeme (cs ++ t) <|> readWord (cs ++ t)) := by
  cases cs with
  | nil => exact absurd rfl hne
  | cons c cs => exact readLexeme_eq_orElse (.inl (hcs c (by simp)))

/-- Every token is found by the reader. The cases follow the order in which it tries them. -/
theorem Lexes.readLexeme_eq {cs rest : List Char} {l : Lexeme} (h : Lexes cs l rest) :
    readLexeme cs = some (l, rest) := by
  cases h with
  | @space gap rest hne hgap hrest =>
    cases gap with
    | nil => exact absurd rfl hne
    | cons c gap =>
      have hdrop : (gap ++ rest).dropWhile isGap = rest := by
        rw [List.dropWhile_append_of_pos fun d hd => hgap d (by simp [hd]), hrest.dropWhile]
      rw [List.cons_append, readLexeme, if_pos (hgap c (by simp)), hdrop]
  | @divider mark rest hmark =>
    have hgap : isGap mark = false := by
      have hcases : mark = ',' ∨ mark = '/' := by simpa [isDividerMark] using hmark
      rcases hcases with rfl | rfl <;> decide
    simp [readLexeme, hgap, hmark]
  | @string quote content rest hquote hcontent =>
    -- A quote is neither a gap nor a divider, which are tried first.
    have hmarks : isGap quote = false ∧ isDividerMark quote = false ∧ quote ≠ '\\' := by
      rcases isQuote_cases hquote with rfl | rfl <;> decide
    rw [List.cons_append, readLexeme, hmarks.1, hmarks.2.1, hquote,
      hcontent.readQuoted hmarks.2.2]
    simp
  | @url name body rest hname hurl hbody =>
    have hstops : Stops (· != ')') (')' :: rest) := Text.stops_cons.2 (by decide)
    have hall : ∀ c ∈ body.toList, (c != ')') = true := by
      intro c hc
      exact bne_iff_ne.2 fun heq => hbody (heq ▸ hc)
    rw [readLexeme_name hname, readOpening_name _ hname, if_pos hurl,
      List.takeWhile_append_of_pos hall, List.dropWhile_append_of_pos hall, hstops.takeWhile,
      hstops.dropWhile]
    simp [readClosing]
  | @urlUnclosed name body hname hurl hbody =>
    have hall : ∀ c ∈ body.toList, (c != ')') = true := by
      intro c hc
      exact bne_iff_ne.2 fun heq => hbody (heq ▸ hc)
    rw [readLexeme_name hname, readOpening_name _ hname, if_pos hurl,
      List.takeWhile_eq_self_iff.2 hall, List.dropWhile_eq_nil_iff.2 hall]
    simp [readClosing]
  | opening hname hurl =>
    rw [readLexeme_name hname, readOpening_name _ hname, if_neg (by simp [hurl])]
  | @number d rest hd hrest hopened hpercent =>
    -- A call is tried before a number, and none is opened here.
    have hopening := hopened.readOpening hd.wordChars (stops_isNameChar hrest)
    have hnumber : readNumberLexeme (d.chars ++ rest) = some (.leaf (.number d), rest) := by
      rw [readNumberLexeme_append hd.chars_ne_nil hrest, readNumberLexeme, hd.readDimension]
      · rfl
      · intro e he hunit
        rw [hd.readDimension] at he
        cases he
        exact hpercent hunit
    rw [readLexeme_wordChars hd.chars_ne_nil hd.wordChars, hopening, hnumber]
    rfl
  | @word text rest htext hrest hopened =>
    -- A word comes last: it is neither the name of a call nor a number.
    have hname : Stops isNameChar rest := hrest.mono fun c hc => isWordChar_of_isNameChar hc
    have hnumber : readNumberLexeme (text.toList ++ rest) = none := by
      rw [readNumberLexeme_word htext.ne_nil hrest, htext.not_number]
      rfl
    have hword : readWord (text.toList ++ rest) = some (.leaf (.word text), rest) := by
      rw [readWord, List.takeWhile_append_of_pos htext.chars, hrest.takeWhile, List.append_nil,
        List.dropWhile_append_of_pos htext.chars, hrest.dropWhile]
      split
      · next hnil => exact absurd hnil htext.ne_nil
      · rw [String.ofList_toList]
    rw [readLexeme_wordChars htext.ne_nil htext.chars, hopened.readOpening htext.chars hname,
      hnumber, hword]
    rfl

/-- The reader and the relation agree on tokens. -/
theorem readLexeme_iff {cs rest : List Char} {l : Lexeme} :
    readLexeme cs = some (l, rest) ↔ Lexes cs l rest :=
  ⟨Lexes.of_readLexeme, Lexes.readLexeme_eq⟩

end AtomicCss
