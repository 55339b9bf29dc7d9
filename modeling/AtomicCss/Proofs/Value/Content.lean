import AtomicCss.Proofs.Outcome
import AtomicCss.Proofs.Value.RoundTrip
import AtomicCss.Value.Normal

/-!
# Values that are texts

The values of `content` and its like are put in double quotes unless they are CSS already. Within
the quotes every double quote is protected by a backslash; a backslash of the text itself is not,
and then protects what comes after it. So the result is one string exactly if no double quote of the
text, nor its end, stands behind an odd number of backslashes.

* `Text.trim_trim`: nothing is left to be cut off.
* `IsEscapable`: the texts that can be put in quotes. `isContent_protectQuotes_iff` is that what is
  put in quotes is then the content of one string.
* `parseValue_inDoubleQuotes_iff`: what is put in quotes is read as one string.
* `normalText_self_iff`: a value that is CSS stands for itself exactly if it is well formed.
* `normalValue_text_wellFormed`: which values of textual properties are well formed.
-/

namespace AtomicCss

/-! ### Cutting off blanks -/

namespace Text

/-- Only the first character decides where a class stops. -/
theorem Stops.shorten {p : Char → Bool} {cs ds : List Char} (h : Stops p ds) (hpre : cs <+: ds) :
    Stops p cs := by
  cases cs with
  | nil => exact stops_nil p
  | cons c cs =>
    obtain ⟨t, rfl⟩ := hpre
    exact stops_cons.2 (stops_cons.1 h)

theorem stops_trimBoth (p : Char → Bool) (cs : List Char) : Stops p (trimBoth p cs) := by
  refine (stops_dropWhile p cs).shorten ?_
  have hsuffix := (List.dropWhile_suffix p (l := (cs.dropWhile p).reverse))
  simpa [trimBoth] using List.reverse_prefix.2 hsuffix

theorem stops_reverse_trimBoth (p : Char → Bool) (cs : List Char) :
    Stops p (trimBoth p cs).reverse := by
  rw [trimBoth, List.reverse_reverse]
  exact stops_dropWhile p _

/-- Nothing is cut off from characters between two that are kept. -/
theorem trimBoth_eq_self {p : Char → Bool} {cs : List Char} (hfirst : Stops p cs)
    (hlast : Stops p cs.reverse) : trimBoth p cs = cs := by
  rw [trimBoth, hfirst.dropWhile, hlast.dropWhile, List.reverse_reverse]

theorem trim_trim (s : String) : trim (trim s) = trim s := by
  rw [trim, trim, String.toList_ofList,
    trimBoth_eq_self (stops_trimBoth _ _) (stops_reverse_trimBoth _ _)]

end Text

/-! ### Texts in quotes -/

/-- The number of backslashes at the end. -/
def trailingSlashes (cs : List Char) : Nat :=
  (cs.reverse.takeWhile (· == '\\')).length

theorem trailingSlashes_concat (cs : List Char) (c : Char) :
    trailingSlashes (cs ++ [c]) = if c = '\\' then trailingSlashes cs + 1 else 0 := by
  by_cases h : c = '\\' <;> simp [trailingSlashes, h]

/-- Whether the text is at its end, or goes on with a double quote. -/
def AtQuote (cs : List Char) : Prop :=
  ∀ c ∈ cs.head?, c = '"'

/-- No double quote, nor the end, stands behind an odd number of backslashes. -/
def IsEscapable (cs : List Char) : Prop :=
  ∀ before after, cs = before ++ after → AtQuote after → trailingSlashes before % 2 = 0

/-- The same for the rest of a text that begins with `start`. -/
def EscapableAfter (start cs : List Char) : Prop :=
  ∀ before after, cs = before ++ after → AtQuote after → trailingSlashes (start ++ before) % 2 = 0

theorem escapableAfter_nil {start : List Char} :
    EscapableAfter start [] ↔ trailingSlashes start % 2 = 0 := by
  constructor
  · intro h
    simpa using h [] [] rfl (by simp [AtQuote])
  · rintro h before after heq -
    obtain ⟨rfl, rfl⟩ := List.append_eq_nil_iff.1 heq.symm
    simpa using h

/-- A quote asks for an even number of backslashes before it, and the rest is as before. -/
theorem escapableAfter_cons {start cs : List Char} {c : Char} :
    EscapableAfter start (c :: cs) ↔
      (c = '"' → trailingSlashes start % 2 = 0) ∧ EscapableAfter (start ++ [c]) cs := by
  constructor
  · intro h
    refine ⟨?_, ?_⟩
    · intro hc
      simpa using h [] (c :: cs) rfl (by simp [AtQuote, hc])
    · rintro before after rfl hafter
      simpa using h (c :: before) after rfl hafter
  · rintro ⟨hquote, hrest⟩ before after heq hafter
    cases before with
    | nil =>
      rw [List.nil_append] at heq
      subst heq
      simpa using hquote (hafter c rfl)
    | cons b before =>
      obtain ⟨rfl, hcs⟩ := List.cons.inj heq
      simpa using hrest before after hcs hafter

section Content

variable {quote c : Char} {cs : List Char}

/-- A backslash takes the character behind it along. -/
theorem isContent_escape_iff : IsContent quote ('\\' :: c :: cs) ↔ IsContent quote cs := by
  constructor
  · intro h
    cases h with
    | escape h => exact h
    | plain _ hescape => exact absurd rfl hescape
  · exact .escape

/-- Any other character may be the content unless it is the quote. -/
theorem isContent_plain_iff (hescape : c ≠ '\\') :
    IsContent quote (c :: cs) ↔ c ≠ quote ∧ IsContent quote cs := by
  constructor
  · intro h
    cases h with
    | escape => exact absurd rfl hescape
    | plain hc _ h => exact ⟨hc, h⟩
  · rintro ⟨hc, h⟩
    exact .plain hc hescape h

theorem not_isContent_slash : ¬ IsContent quote ['\\'] := by
  intro h
  cases h with
  | plain _ hescape => exact hescape rfl

end Content

/-- The characters with a backslash before each double quote. -/
def protectQuotes (cs : List Char) : List Char :=
  cs.flatMap fun c => if c = '"' then ['\\', '"'] else [c]

theorem protectQuotes_quote (cs : List Char) :
    protectQuotes ('"' :: cs) = '\\' :: '"' :: protectQuotes cs := rfl

theorem protectQuotes_cons {c : Char} (h : c ≠ '"') (cs : List Char) :
    protectQuotes (c :: cs) = c :: protectQuotes cs := by
  simp [protectQuotes, h]

/-- The backslash that protects what comes next, if there is one. -/
def pendingSlash (start : List Char) : List Char :=
  if trailingSlashes start % 2 = 0 then [] else ['\\']

/-- Reading goes over the text with a backslash pending or not, as the number of backslashes just
before is odd or even. -/
theorem isContent_pendingSlash_iff {start cs : List Char} :
    IsContent '"' (pendingSlash start ++ protectQuotes cs) ↔ EscapableAfter start cs := by
  induction cs generalizing start with
  | nil =>
    rw [escapableAfter_nil, pendingSlash]
    split
    · next heven => simp [heven, protectQuotes, IsContent.nil]
    · next hodd => simp [hodd, protectQuotes, not_isContent_slash]
  | cons c cs ih =>
    rw [escapableAfter_cons, ← ih, pendingSlash, pendingSlash, trailingSlashes_concat]
    -- Behind an odd number of backslashes the next character is protected already.
    by_cases heven : trailingSlashes start % 2 = 0
    · by_cases hquote : c = '"'
      · subst hquote
        simp [heven, protectQuotes_quote, isContent_escape_iff]
      · by_cases hslash : c = '\\'
        · have hodd : ¬ (trailingSlashes start + 1) % 2 = 0 := by omega
          simp [heven, hodd, hslash, protectQuotes_cons]
        · simp [heven, hquote, hslash, protectQuotes_cons hquote, isContent_plain_iff hslash]
    · by_cases hquote : c = '"'
      · subst hquote
        simp [heven, protectQuotes_quote, isContent_escape_iff, isContent_plain_iff]
      · by_cases hslash : c = '\\'
        · have heven' : (trailingSlashes start + 1) % 2 = 0 := by omega
          simp [heven, heven', hslash, protectQuotes_cons, isContent_escape_iff]
        · simp [heven, hquote, hslash, protectQuotes_cons hquote, isContent_escape_iff]

/-- What is put in quotes is the content of one string exactly if the text is escapable. -/
theorem isContent_protectQuotes_iff {cs : List Char} :
    IsContent '"' (protectQuotes cs) ↔ IsEscapable cs :=
  @isContent_pendingSlash_iff [] cs

/-! ### Values of textual properties -/

/-- The value can be read, and all its calls are closed. -/
def WellFormed (value : String) : Prop :=
  ∃ nodes, parseValue value = .ok nodes ∧ Node.anyUnclosed nodes = false

/-- The text in double quotes. -/
def inDoubleQuotes (s : String) : String :=
  "\"" ++ Text.replaceChar '"' "\\\"" s ++ "\""

theorem toList_inDoubleQuotes (s : String) :
    (inDoubleQuotes s).toList = '"' :: (protectQuotes s.toList ++ ['"']) := by
  simp only [inDoubleQuotes, String.toList_append, Text.replaceChar, String.toList_ofList]
  rfl

/-- A text in quotes is taken for CSS. -/
theorem isCssContent_inDoubleQuotes (s : String) : isCssContent (inDoubleQuotes s) = true := by
  have hquotes : isInQuotes (inDoubleQuotes s) = true := by
    rw [isInQuotes, toList_inDoubleQuotes]
    cases protectQuotes s.toList with
    | nil => rfl
    | cons c cs =>
      have hlast : (c :: (cs ++ ['"'])).getLast? = some '"' := by
        rw [← List.cons_append, List.getLast?_concat]
      simp [isQuote, hlast]
  simp [isCssContent, hquotes]

/-- The quotes keep the blanks of a text from being trimmed. -/
theorem trim_inDoubleQuotes (s : String) : Text.trim (inDoubleQuotes s) = inDoubleQuotes s := by
  refine String.toList_inj.1 ?_
  rw [Text.trim, String.toList_ofList, toList_inDoubleQuotes]
  refine Text.trimBoth_eq_self (Text.stops_cons.2 (by decide)) ?_
  rw [List.reverse_cons, List.reverse_append]
  exact Text.stops_cons.2 (by decide)

/-! ### Reading a text in quotes -/

/-- After a quote a string is read. -/
theorem readLexeme_quote {cs t : List Char} {l : Lexeme}
    (h : readLexeme ('"' :: cs) = some (l, t)) :
    ∃ content : String, l = .leaf (.string '"' content) ∧ IsContent '"' content.toList ∧
      cs = content.toList ++ '"' :: t := by
  have hquoted : readLexeme ('"' :: cs) = (readQuoted '"' cs).map fun r =>
      (.leaf (.string '"' (String.ofList r.1)), r.2) := rfl
  rw [hquoted] at h
  obtain ⟨⟨content, rest⟩, hread, heq⟩ := Option.map_eq_some_iff.1 h
  cases heq
  obtain ⟨hcontent, hcs⟩ := readQuoted_eq_some hread
  exact ⟨String.ofList content, rfl, by simpa using hcontent, by simpa using hcs⟩

/-- A value that begins with a quote begins with a string. -/
theorem Reads.exists_string {cs : List Char} {nodes : List Node} (h : Reads ('"' :: cs) nodes []) :
    ∃ (content : String) (rest : List Char) (others : List Node),
      nodes = .string '"' content :: others ∧ IsContent '"' content.toList ∧
        cs = content.toList ++ '"' :: rest ∧ Reads rest others [] := by
  cases h with
  | leaf hl hnodes =>
    obtain ⟨content, hleaf, hcontent, hcs⟩ := readLexeme_quote hl.readLexeme_eq
    cases hleaf
    exact ⟨content, _, _, rfl, hcontent, hcs, hnodes⟩
  | call hl =>
    obtain ⟨content, hleaf, -⟩ := readLexeme_quote hl.readLexeme_eq
    cases hleaf

theorem Reads.eq_nil {cs : List Char} (h : Reads cs [] []) : cs = [] := by
  cases h
  rfl

/-- A text in quotes is one string exactly if it is escapable. -/
theorem parseValue_inDoubleQuotes_iff {s : String} :
    (∃ content, parseValue (inDoubleQuotes s) = .ok [.string '"' content]) ↔
      IsEscapable s.toList := by
  rw [← isContent_protectQuotes_iff]
  constructor
  · rintro ⟨content, h⟩
    rw [parseValue_eq_ok, toList_inDoubleQuotes] at h
    obtain ⟨content', rest, others, heq, hcontent, hcs, hrest⟩ := h.exists_string
    cases heq
    rw [hrest.eq_nil] at hcs
    rwa [List.append_cancel_right hcs]
  · intro h
    refine ⟨String.ofList (protectQuotes s.toList), ?_⟩
    have hrender : Node.render [.string '"' (String.ofList (protectQuotes s.toList))] =
        inDoubleQuotes s := by
      refine String.toList_inj.1 ?_
      rw [toList_inDoubleQuotes, Node.toList_render]
      simp [Node.chars]
    rw [← hrender, parseValue_render_iff]
    exact ⟨⟨rfl, by simpa using h⟩, trivial⟩

theorem protectQuotes_eq_self {cs : List Char} (h : '"' ∉ cs) : protectQuotes cs = cs := by
  induction cs with
  | nil => rfl
  | cons c cs ih =>
    obtain ⟨hc, hcs⟩ := List.ne_and_not_mem_of_not_mem_cons h
    rw [protectQuotes_cons hc.symm, ih hcs]

/-- Without a double quote in the text, a string can only end with it. -/
theorem wellFormed_inDoubleQuotes_iff {s : String} (h : '"' ∉ s.toList) :
    WellFormed (inDoubleQuotes s) ↔ IsEscapable s.toList := by
  constructor
  · rintro ⟨nodes, hparse, -⟩
    rw [parseValue_eq_ok, toList_inDoubleQuotes] at hparse
    obtain ⟨content, rest, others, -, hcontent, hcs, -⟩ := hparse.exists_string
    rw [← isContent_protectQuotes_iff]
    have hnotMem : '"' ∉ protectQuotes s.toList := by rwa [protectQuotes_eq_self h]
    rcases List.append_eq_append_iff.1 hcs with ⟨z, hz, hend⟩ | ⟨z, hz, hend⟩
    · cases z with
      | nil => rwa [hz, List.append_nil] at hcontent
      | cons c z => simp at hend
    · cases z with
      | nil => rwa [hz, List.append_nil]
      | cons c z =>
        obtain ⟨rfl, -⟩ := List.cons.inj hend
        exact absurd (by simp [hz]) hnotMem
  · intro hescapable
    obtain ⟨content, hparse⟩ := parseValue_inDoubleQuotes_iff.2 hescapable
    exact ⟨_, hparse, rfl⟩

/-! ### What becomes of a text -/

/-- A value is accepted exactly if it is well-formed. -/
theorem readClosed_isOk_iff (property value : String) :
    (∃ nodes, readClosed property value = .ok nodes) ↔ WellFormed value := by
  unfold WellFormed readClosed
  cases parseValue value with
  | error failure => simp
  | ok nodes => cases hclosed : Node.anyUnclosed nodes <;> simp [hclosed]

variable {options : Options} {property raw v : String}

/-- CSS is kept if it is well formed. -/
theorem normalText_of_isCssContent (hcss : isCssContent (Text.trim raw) = true) :
    normalText property raw = .ok v ↔ WellFormed v ∧ v = Text.trim raw := by
  have hread : normalText property raw =
      (readClosed property (Text.trim raw)).map fun _ => Text.trim raw := by
    rw [normalText]
    exact if_pos hcss
  rw [hread, Outcome.map_eq_ok, ← readClosed_isOk_iff property]
  constructor
  · rintro ⟨nodes, hnodes, rfl⟩
    exact ⟨⟨nodes, hnodes⟩, rfl⟩
  · rintro ⟨⟨nodes, hnodes⟩, rfl⟩
    exact ⟨nodes, hnodes, rfl⟩

/-- All else is put in quotes. -/
theorem normalText_of_not_isCssContent (hcss : isCssContent (Text.trim raw) = false) :
    normalText property raw = .ok (inDoubleQuotes (Text.trim raw)) := by
  rw [normalText]
  exact if_neg (by simp [hcss])

/-- A value that is CSS, without blanks around it, stands for itself exactly if it is well
formed. -/
theorem normalText_self_iff (hcss : isCssContent v = true) (htrim : Text.trim v = v) :
    normalText property v = .ok v ↔ WellFormed v := by
  rw [normalText_of_isCssContent (by rwa [htrim]), htrim]
  exact and_iff_left rfl

theorem normalValue_of_mem_textual (h : property ∈ Property.textual) :
    normalValue options property raw = normalText property raw := by
  rw [normalValue, if_pos (by simpa using h)]

/-- Let a value of a textual property be accepted. It is well formed exactly if it is its own
canonical form. A text that is CSS is well formed, and so is an escapable text. A text that is not
CSS becomes one string exactly if it is escapable, and if it has no double quote then it becomes
something well formed only so. -/
theorem normalValue_text_wellFormed (hproperty : property ∈ Property.textual)
    (h : normalValue options property raw = .ok v) :
    (WellFormed v ↔ normalValue options property v = .ok v) ∧
    (isCssContent (Text.trim raw) = true ∨ IsEscapable (Text.trim raw).toList → WellFormed v) ∧
    (isCssContent (Text.trim raw) = false →
      ((∃ content, parseValue v = .ok [.string '"' content]) ↔
        IsEscapable (Text.trim raw).toList) ∧
      ('"' ∉ (Text.trim raw).toList → (WellFormed v ↔ IsEscapable (Text.trim raw).toList))) := by
  rw [normalValue_of_mem_textual hproperty] at h ⊢
  cases hcss : isCssContent (Text.trim raw) with
  | true =>
    obtain ⟨hformed, rfl⟩ := (normalText_of_isCssContent hcss).1 h
    exact ⟨(normalText_self_iff hcss (Text.trim_trim raw)).symm, fun _ => hformed, by simp⟩
  | false =>
    rw [normalText_of_not_isCssContent hcss] at h
    cases h
    refine ⟨(normalText_self_iff (isCssContent_inDoubleQuotes _) (trim_inDoubleQuotes _)).symm,
      ?_, fun _ => ⟨parseValue_inDoubleQuotes_iff, wellFormed_inDoubleQuotes_iff⟩⟩
    rintro (hfalse | hescapable)
    · cases hfalse
    · obtain ⟨content, hparse⟩ := parseValue_inDoubleQuotes_iff.2 hescapable
      exact ⟨_, hparse, rfl⟩

/-- A backslash at the end protects the quote that should end the string: the value is accepted,
and cannot be read. -/
theorem normalValue_text_wellFormed_backslash :
    "content" ∈ Property.textual ∧ normalValue {} "content" "a\\" = .ok "\"a\\\"" ∧
      ¬ WellFormed "\"a\\\"" ∧
      normalValue {} "content" "\"a\\\"" ≠ .ok "\"a\\\"" := by
  have hproperty : "content" ∈ Property.textual := by decide
  have hvalue : normalValue {} "content" "a\\" = .ok "\"a\\\"" :=
    Outcome.eq_ok_of_toOption (by decide +kernel)
  have hcss : isCssContent (Text.trim "a\\") = false := by decide +kernel
  have hquote : '"' ∉ (Text.trim "a\\").toList := by decide +kernel
  have hescapable : ¬ IsEscapable (Text.trim "a\\").toList := by
    intro h
    have heven := h ['a', '\\'] [] (by decide +kernel) (by simp [AtQuote])
    exact absurd heven (by decide)
  obtain ⟨hself, -, hquoted⟩ := normalValue_text_wellFormed hproperty hvalue
  have hformed : ¬ WellFormed "\"a\\\"" := fun h => hescapable (((hquoted hcss).2 hquote).1 h)
  exact ⟨hproperty, hvalue, hformed, fun h => hformed (hself.2 h)⟩

end AtomicCss
