import Mathlib.Data.Nat.Digits.Defs
import AtomicCss.Inline.Code
import AtomicCss.Proofs.Text

/-!
# String literals

A string literal ends with its quote, with its number signs if it is raw, and with the identifier
that may follow at once. So it is read in the same way whatever comes after it, unless that goes on
with the identifier.

* `readToken_append`: a literal is read in the same way in front of other text.
* `Literal`: a text that is one string literal, with what it stands for.
* `Literal.ofText`: the literal of a text in generated code, so that there is one for every text.
-/

namespace AtomicCss.Inline

open Text (Stops)

/-! ### Strings -/

/-- What is made of a part that is read in front of other text. -/
theorem map_append {α β : Type} (f : α → β) {x y : Option (α × List Char)} {b : β}
    {r t : List Char} (h : x.map (fun p => (f p.1, p.2)) = some (b, r))
    (hxy : ∀ a, x = some (a, r) → y = some (a, r ++ t)) :
    y.map (fun p => (f p.1, p.2)) = some (b, r ++ t) := by
  obtain ⟨⟨a, u⟩, hx, heq⟩ := Option.map_eq_some_iff.1 h
  cases heq
  rw [hxy a hx]
  rfl

/-- Reading a code point does not look behind its brace. -/
theorem readCodePoint_append {digits n : Nat} {cs r : List Char} {c : Char}
    (h : readCodePoint digits n cs = some (c, r)) (t : List Char) :
    readCodePoint digits n (cs ++ t) = some (c, r ++ t) := by
  fun_induction readCodePoint digits n cs with
  | case1 digits n cs hscalar =>
    cases h
    simp only [List.cons_append, readCodePoint, if_pos hscalar, if_true]
  | case3 digits n cs hdigits hbrace ih =>
    rw [List.cons_append, readCodePoint, if_neg hbrace, if_pos rfl, if_pos hdigits, ih h]
  | case5 digits n d cs hbrace hscore v hvalue hdigits ih =>
    rw [List.cons_append, readCodePoint, if_neg hbrace, if_neg hscore, hvalue]
    exact (if_pos hdigits).trans (ih h)
  | case2 | case4 | case6 | case7 | case8 => cases h

/-- White space in front is dropped up to the first other character. -/
theorem dropIndent_cons {c : Char} (h : c ≠ '\r') (cs : List Char) :
    dropIndent (c :: cs) = if Json.isSpace c then dropIndent cs else some (c :: cs) := by
  simp [dropIndent, h]

/-- Dropping white space does not look behind the first character that stays. -/
theorem dropIndent_append {cs r : List Char} (h : dropIndent cs = some r) (t : List Char) :
    dropIndent (cs ++ t) = some (r ++ t) := by
  fun_induction dropIndent cs with
  | case1 => cases h
  | case2 cs ih => exact ih h
  | case3 => cases h
  | case4 c cs _ hreturn hspace ih =>
    rw [List.cons_append, dropIndent_cons hreturn, if_pos hspace, ih h]
  | case5 c cs _ hreturn hspace =>
    cases h
    rw [List.cons_append, dropIndent_cons hreturn, if_neg hspace]

/-- Reading an escape does not look behind it. -/
theorem readEscape_append {cs x r : List Char} (h : readEscape cs = some (x, r)) (t : List Char) :
    readEscape (cs ++ t) = some (x, r ++ t) := by
  revert h
  fun_cases readEscape cs with
  | case1 | case2 | case3 | case4 | case5 | case6 | case7 =>
    rintro ⟨⟩
    rfl
  | case8 a b rest high low hlow hhigh hlt =>
    rintro ⟨⟩
    simp [readEscape, hhigh, hlow, hlt]
  | case11 rest =>
    intro h
    exact map_append (fun c => [c]) h fun _ hread => readCodePoint_append hread t
  | case12 rest | case13 rest =>
    intro h
    obtain ⟨u, hread, heq⟩ := Option.map_eq_some_iff.1 h
    cases heq
    show (dropIndent (rest ++ t)).map _ = _
    rw [dropIndent_append hread]
    rfl
  | case9 | case10 | case14 => rintro ⟨⟩

/-- A character with no meaning of its own is read as itself. -/
theorem readString_plain {c : Char} (hquote : c ≠ '"') (hescape : c ≠ '\\') (hreturn : c ≠ '\r')
    (steps : Nat) (cs : List Char) :
    readString (steps + 1) (c :: cs) =
      (readString steps cs).map fun r => (c :: r.1, r.2) := by
  rw [readString] <;> assumption

/-- An escape is read as what it stands for, and reading goes on behind it. -/
theorem readString_escape {cs x r : List Char} (h : readEscape cs = some (x, r)) (steps : Nat) :
    readString (steps + 1) ('\\' :: cs) = (readString steps r).map fun s => (x ++ s.1, s.2) := by
  rw [readString, h]
  show (readString steps r).bind _ = _
  cases readString steps r <;> rfl

/-- A string is read in the same way in front of other text. -/
theorem readString_append {steps : Nat} {cs x r : List Char}
    (h : readString steps cs = some (x, r)) (t : List Char) {more : Nat} (hmore : steps ≤ more) :
    readString more (cs ++ t) = some (x, r ++ t) := by
  revert h
  fun_induction readString steps cs generalizing x r more with
  | case1 | case2 | case6 => rintro ⟨⟩
  | case3 steps cs =>
    rintro ⟨⟩
    obtain ⟨more, rfl⟩ := Nat.exists_eq_add_of_lt hmore
    rfl
  | case4 steps cs ih =>
    obtain ⟨more, rfl⟩ : ∃ n, more = n + 1 := ⟨more - 1, by omega⟩
    intro h
    -- An escape is read as a whole, and so it does not see what is put behind.
    obtain ⟨⟨x', u⟩, hescape, h⟩ := Option.bind_eq_some_iff.1 h
    obtain ⟨⟨content, v⟩, hread, heq⟩ := Option.bind_eq_some_iff.1 h
    cases heq
    rw [List.cons_append, readString_escape (readEscape_append hescape t),
      ih u (by omega) hread]
    rfl
  | case5 steps cs ih =>
    obtain ⟨more, rfl⟩ : ∃ n, more = n + 1 := ⟨more - 1, by omega⟩
    intro h
    exact map_append ('\n' :: ·) h fun _ => ih (by omega)
  | case7 steps c cs hquote hescape hreturn ih =>
    obtain ⟨more, rfl⟩ : ∃ n, more = n + 1 := ⟨more - 1, by omega⟩
    intro h
    rw [List.cons_append, readString_plain hquote hescape hreturn]
    exact map_append (c :: ·) h fun _ => ih (by omega)

/-! ### Raw strings -/

/-- In a raw string every character but a quote and a carriage return is read as itself. -/
theorem readRawString_plain {c : Char} (hquote : c ≠ '"') (hreturn : c ≠ '\r') (hashes : Nat)
    (cs : List Char) :
    readRawString hashes (c :: cs) =
      (readRawString hashes cs).map fun r => (c :: r.1, r.2) := by
  simp [readRawString, hreturn]

/-- The number signs after the closing quote are part of what is read. -/
theorem length_of_readRawString {hashes : Nat} {cs x r : List Char}
    (h : readRawString hashes cs = some (x, r)) : hashes < cs.length := by
  revert h
  fun_induction readRawString hashes cs generalizing x r with
  | case1 | case5 => rintro ⟨⟩
  | case2 cs hsigns =>
    rintro -
    have hlength := congrArg List.length hsigns
    rw [List.length_take, List.length_replicate] at hlength
    rw [List.length_cons]
    omega
  | case3 cs hsigns ih | case4 cs ih | case6 c cs _ _ _ ih =>
    intro h
    obtain ⟨⟨content, v⟩, hread, -⟩ := Option.map_eq_some_iff.1 h
    have hlength := ih hread
    simp only [List.length_cons]
    omega

/-- Reading a raw string does not look behind its end. -/
theorem readRawString_append {hashes : Nat} {cs x r : List Char}
    (h : readRawString hashes cs = some (x, r)) (t : List Char) :
    readRawString hashes (cs ++ t) = some (x, r ++ t) := by
  revert h
  fun_induction readRawString hashes cs generalizing x r with
  | case1 | case5 => rintro ⟨⟩
  | case2 cs hsigns =>
    rintro ⟨⟩
    have hlength := congrArg List.length hsigns
    rw [List.length_take, List.length_replicate] at hlength
    rw [List.cons_append, readRawString, List.take_append_of_le_length (by omega), if_pos hsigns,
      List.drop_append_of_le_length (by omega)]
  | case3 cs hsigns ih =>
    intro h
    -- The rest is long enough, so that no number sign behind it can complete the end of a string.
    obtain ⟨_, hread, -⟩ := Option.map_eq_some_iff.1 h
    have hlength := length_of_readRawString hread
    rw [List.cons_append, readRawString, List.take_append_of_le_length (by omega), if_neg hsigns]
    exact map_append ('"' :: ·) h fun _ => ih
  | case4 cs ih =>
    intro h
    exact map_append ('\r' :: '\n' :: ·) h fun _ => ih
  | case6 c cs hquote _ hreturn ih =>
    intro h
    rw [List.cons_append, readRawString_plain hquote hreturn]
    exact map_append (c :: ·) h fun _ => ih

/-! ### Literals -/

theorem isIdentifierRest_of_isIdentifierStart {c : Char} (h : Text.isIdentifierStart c = true) :
    Text.isIdentifierRest c = true := by
  simp [Text.isIdentifierRest, h]

/-- No identifier begins where no character of one stands. -/
theorem readIdentifier_of_stops {t : List Char} (h : Stops Text.isIdentifierRest t) :
    readIdentifier t = none := by
  have hstart : Stops Text.isIdentifierStart t :=
    h.mono fun _ => isIdentifierRest_of_isIdentifierStart
  cases t with
  | nil => rfl
  | cons c t => simp [readIdentifier, Text.stops_cons.1 hstart]

/-- An identifier is read in the same way in front of text that does not go on with it. -/
theorem readIdentifier_append {cs name r : List Char} (h : readIdentifier cs = some (name, r))
    {t : List Char} (ht : Stops Text.isIdentifierRest t) :
    readIdentifier (cs ++ t) = some (name, r ++ t) := by
  cases cs with
  | nil => cases h
  | cons c cs =>
    rw [readIdentifier] at h
    split at h
    · next hstart =>
      cases h
      rw [List.cons_append, readIdentifier, if_pos hstart, Text.takeWhile_append_of_stops cs ht,
        Text.dropWhile_append_of_stops cs ht]
    · cases h

/-- A literal without a suffix has none when something else follows. -/
theorem dropSuffix_append {r t : List Char} (h : dropSuffix r = [])
    (ht : Stops Text.isIdentifierRest t) : dropSuffix (r ++ t) = t := by
  unfold dropSuffix at h ⊢
  cases hread : readIdentifier r with
  | none =>
    simp only [hread] at h
    rw [h, List.nil_append, readIdentifier_of_stops ht]
  | some p =>
    obtain ⟨name, u⟩ := p
    simp only [hread] at h
    rw [readIdentifier_append hread ht, h]
    rfl

theorem written_append (cs t : List Char) : written (cs ++ t) t = String.ofList cs := by
  simp [written]

/-- The token of a string is the same in front of text that does not go on with its suffix. -/
theorem stringToken_append {cs x r t : List Char} {token : Token}
    (h : stringToken cs (x, r) = (token, [])) (ht : Stops Text.isIdentifierRest t) :
    stringToken (cs ++ t) (x, r ++ t) = (token, t) := by
  obtain ⟨htoken, hsuffix⟩ := Prod.mk.inj h
  have hwritten : written cs [] = String.ofList cs := by simpa using written_append cs []
  rw [← htoken, hsuffix, hwritten, stringToken, dropSuffix_append hsuffix ht, written_append]

/-- Raw strings may have as many hash marks as the limit allows. -/
theorem readAfterR_raw (n : Nat) (cs : List Char) :
    readAfterR ('r' :: (List.replicate n '#' ++ '"' :: cs)) =
      if n ≤ rawHashLimit then
        (readRawString n cs).map (stringToken ('r' :: (List.replicate n '#' ++ '"' :: cs)))
      else none := by
  have hsigns : ∀ c ∈ List.replicate n '#', (c == '#') = true := by
    intro c hc
    rw [List.eq_of_mem_replicate hc]
    rfl
  have hlength : ((List.replicate n '#' ++ '"' :: cs).takeWhile (· == '#')).length = n := by
    rw [List.takeWhile_append_of_pos hsigns]
    simp
  simp only [readAfterR, List.drop_succ_cons, List.drop_zero, hlength,
    List.dropWhile_append_of_pos hsigns]
  rfl

/-- A raw identifier is never read as a literal. -/
theorem readRawIdentifier_ne_literal {w : String} {content : Option String} {r : List Char}
    (cs : List Char) : readRawIdentifier cs ≠ some (.literal w content, r) := by
  unfold readRawIdentifier
  cases readIdentifier cs with
  | none => simp
  | some p =>
    simp only
    split <;> simp

/-- After the letter `r` a string literal is a raw string. -/
theorem readAfterR_eq_literal {cs r : List Char} {w : String} {content : String}
    (h : readAfterR ('r' :: cs) = some (.literal w (some content), r)) :
    ∃ n ds, cs = List.replicate n '#' ++ '"' :: ds ∧ n ≤ rawHashLimit := by
  have hsigns : cs.takeWhile (· == '#') =
      List.replicate (cs.takeWhile (· == '#')).length '#' := by
    refine List.eq_replicate_of_mem fun c hc => ?_
    simpa using List.all_eq_true.1 List.all_takeWhile c hc
  simp only [readAfterR, List.drop_succ_cons, List.drop_zero] at h
  split at h
  · next ds hds =>
    split at h
    · next hlimit =>
      refine ⟨(cs.takeWhile (· == '#')).length, ds, ?_, hlimit⟩
      rw [← hsigns, ← hds, List.takeWhile_append_dropWhile]
    · cases h
  · split at h
    · obtain ⟨p, -, heq⟩ := Option.map_eq_some_iff.1 h
      cases heq
    · split at h
      · exact absurd h (readRawIdentifier_ne_literal _)
      · cases h

theorem bracketOf?_ne_literal {w : String} {content : Option String} (c : Char) :
    bracketOf? c ≠ some (.literal w content) := by
  unfold bracketOf?
  split <;> simp

/-- The two ways to begin a string literal. -/
theorem readToken_eq_literal {cs r : List Char} {w : String} {content : String}
    (h : readToken cs = some (.literal w (some content), r)) :
    (∃ ds, cs = '"' :: ds) ∨
      ∃ n ds, cs = 'r' :: (List.replicate n '#' ++ '"' :: ds) ∧ n ≤ rawHashLimit := by
  cases cs with
  | nil => cases h
  | cons c cs =>
    rw [readToken] at h
    split at h
    · next hquote => exact .inl ⟨cs, by rw [hquote]⟩
    split at h
    · next hr =>
      subst hr
      obtain ⟨n, ds, rfl, hlimit⟩ := readAfterR_eq_literal h
      exact .inr ⟨n, ds, rfl, hlimit⟩
    -- No other token stands for a text.
    split at h
    · obtain ⟨rest, -, heq⟩ := Option.map_eq_some_iff.1 h
      cases heq
    split at h
    · obtain ⟨p, -, heq⟩ := Option.map_eq_some_iff.1 h
      cases heq
    cases hbracket : bracketOf? c with
    | some token =>
      rw [hbracket] at h
      cases h
      exact absurd hbracket (bracketOf?_ne_literal c)
    | none =>
      simp only [hbracket] at h
      split at h <;> cases h

/-- A string literal is read in the same way in front of text that does not go on with its
suffix. -/
theorem readToken_append {cs t : List Char} {w : String} {content : String}
    (h : readToken cs = some (.literal w (some content), []))
    (ht : Stops Text.isIdentifierRest t) :
    readToken (cs ++ t) = some (.literal w (some content), t) := by
  rcases readToken_eq_literal h with ⟨ds, rfl⟩ | ⟨n, ds, rfl, hlimit⟩
  · obtain ⟨⟨x, r⟩, hread, htoken⟩ := Option.map_eq_some_iff.1 h
    have hlength : ds.length + 1 ≤ (ds ++ t).length + 1 := by simp
    show (readString ((ds ++ t).length + 1) (ds ++ t)).map (stringToken ('"' :: ds ++ t)) = _
    rw [readString_append hread t hlength, Option.map_some, stringToken_append htoken ht]
  · have hraw : readToken ('r' :: (List.replicate n '#' ++ '"' :: ds)) = _ := readAfterR_raw n ds
    have hraw' : readToken ('r' :: (List.replicate n '#' ++ '"' :: (ds ++ t))) = _ :=
      readAfterR_raw n (ds ++ t)
    rw [hraw, if_pos hlimit] at h
    obtain ⟨⟨x, r⟩, hread, htoken⟩ := Option.map_eq_some_iff.1 h
    rw [List.cons_append, List.append_assoc, List.cons_append, hraw', if_pos hlimit,
      readRawString_append hread t, Option.map_some]
    have happend := stringToken_append htoken ht
    rw [List.cons_append, List.append_assoc, List.cons_append] at happend
    rw [happend]

/-- A text that is one string literal. -/
structure Literal where
  /-- The literal as it is written. -/
  written : String
  /-- The text that it stands for. -/
  content : String
  /-- It is read as one token. -/
  reads : readToken written.toList = some (.literal written (some content), [])

/-! ### Literals in code -/

/-- A hexadecimal digit is read with its value, and is no brace and no underscore. -/
theorem hexValue?_digitChar {n : Nat} (h : n < 16) :
    Json.hexValue? (Nat.digitChar n) = some n ∧ Nat.digitChar n ≠ '\x7d' ∧
      Nat.digitChar n ≠ '_' := by
  have hall : ∀ m < 16, Json.hexValue? (Nat.digitChar m) = some m ∧ Nat.digitChar m ≠ '\x7d' ∧
      Nat.digitChar m ≠ '_' := by decide
  exact hall n h

theorem readCodePoint_digitChar {digits value n : Nat} (hn : n < 16) (hdigits : digits < 6)
    (cs : List Char) :
    readCodePoint digits value (Nat.digitChar n :: cs) =
      readCodePoint (digits + 1) (16 * value + n) cs := by
  obtain ⟨hvalue, hbrace, hscore⟩ := hexValue?_digitChar hn
  rw [readCodePoint, if_neg hbrace, if_neg hscore, hvalue]
  exact if_pos hdigits

/-- Hexadecimal digits are read as the number that they stand for. -/
theorem readCodePoint_toDigits {n : Nat} (cs : List Char)
    (h : (Nat.toDigits 16 n).length ≤ 6) :
    readCodePoint 0 0 (Nat.toDigits 16 n ++ cs) =
      readCodePoint (Nat.toDigits 16 n).length n cs := by
  induction n using Nat.strongRecOn generalizing cs with
  | ind n ih =>
    by_cases hlt : n < 16
    · rw [Nat.toDigits_of_lt_base hlt]
      exact (readCodePoint_digitChar hlt (by decide) cs).trans (by simp)
    · -- The digits before the last one are those of the sixteenth part.
      rw [Nat.toDigits_of_base_le (by decide) (by omega), List.length_append] at h ⊢
      rw [List.length_singleton] at h ⊢
      have hmod : n % 16 < 16 := Nat.mod_lt n (by decide)
      rw [List.append_assoc, ih (n / 16) (by omega) _ (by omega), List.singleton_append,
        readCodePoint_digitChar hmod (by omega), Nat.div_add_mod]

theorem isScalar_toNat (c : Char) : isScalar c.toNat = true := by
  have hvalid : c.toNat < 0xd800 ∨ (0xdfff < c.toNat ∧ c.toNat < 0x110000) := c.valid
  simpa [isScalar] using hvalid

/-- An escape with the code point of a character is read as that character. -/
theorem readEscape_codePoint (c : Char) (cs : List Char) :
    readEscape ('u' :: '\x7b' :: (Nat.toDigits 16 c.toNat ++ '\x7d' :: cs)) = some ([c], cs) := by
  have hlength : (Nat.toDigits 16 c.toNat).length ≤ 6 := by
    refine Nat.toDigits_length 16 _ 6 (by decide) ?_
    have hscalar := isScalar_toNat c
    simp only [isScalar, Bool.or_eq_true, Bool.and_eq_true, decide_eq_true_eq] at hscalar
    omega
  have hpos : 0 < (Nat.toDigits 16 c.toNat).length := List.length_pos_iff.2 Nat.toDigits_ne_nil
  show (readCodePoint 0 0 (Nat.toDigits 16 c.toNat ++ '\x7d' :: cs)).map _ = _
  rw [readCodePoint_toDigits _ hlength]
  simp [readCodePoint, hpos, isScalar_toNat, Char.ofNat_toNat]

/-- A character stands for itself, or is written as an escape that stands for it. -/
theorem escapeChar_cases (c : Char) (next : List Char) :
    (escapeChar c next = [c] ∧ c ≠ '"' ∧ c ≠ '\\' ∧ c ≠ '\r') ∨
      ∃ ds, escapeChar c next = '\\' :: ds ∧ ∀ cs, readEscape (ds ++ cs) = some ([c], cs) := by
  -- The cases are those of the table of escapes; what is left is printable or has a code.
  by_cases hnull : c = Char.ofNat 0
  · subst hnull
    refine .inr ?_
    rw [escapeChar, if_pos rfl]
    unfold nullEscape
    split
    · exact ⟨['0'], rfl, fun _ => rfl⟩
    · split
      · exact ⟨['x', '0', '0'], rfl, fun _ => rfl⟩
      · exact ⟨['0'], rfl, fun _ => rfl⟩
  by_cases htab : c = '\t'
  · subst htab
    exact .inr ⟨['t'], rfl, fun _ => rfl⟩
  by_cases hreturn : c = '\r'
  · subst hreturn
    exact .inr ⟨['r'], rfl, fun _ => rfl⟩
  by_cases hline : c = '\n'
  · subst hline
    exact .inr ⟨['n'], rfl, fun _ => rfl⟩
  by_cases hquote : c = '"'
  · subst hquote
    exact .inr ⟨['"'], rfl, fun _ => rfl⟩
  by_cases hescape : c = '\\'
  · subst hescape
    exact .inr ⟨['\\'], rfl, fun _ => rfl⟩
  by_cases hprintable : Text.isPrintable c = true
  · refine .inl ⟨?_, hquote, hescape, hreturn⟩
    simp [escapeChar, *]
  · refine .inr ⟨'u' :: '\x7b' :: Nat.toDigits 16 c.toNat ++ ['\x7d'], ?_, fun cs => ?_⟩
    · simp [escapeChar, codePointEscape, *]
    · simpa using readEscape_codePoint c cs

/-- An escaped character is read back in one step, whatever follows it. -/
theorem readString_escapeChar (c : Char) (next cs : List Char) (steps : Nat) :
    readString (steps + 1) (escapeChar c next ++ cs) =
      (readString steps cs).map fun r => (c :: r.1, r.2) := by
  rcases escapeChar_cases c next with ⟨hplain, hquote, hescape, hreturn⟩ | ⟨ds, hds, hread⟩
  · rw [hplain]
    exact readString_plain hquote hescape hreturn steps cs
  · rw [hds]
    exact readString_escape (hread cs) steps

/-- The characters of a literal stand for the text. Each character takes one step. -/
theorem readString_escapeChars (cs rest : List Char) {steps : Nat} (h : cs.length < steps) :
    readString steps (escapeChars cs ++ '"' :: rest) = some (cs, rest) := by
  induction cs generalizing steps with
  | nil =>
    obtain ⟨steps, rfl⟩ : ∃ n, steps = n + 1 := ⟨steps - 1, by omega⟩
    rfl
  | cons c cs ih =>
    rw [List.length_cons] at h
    obtain ⟨steps, rfl⟩ : ∃ n, steps = n + 1 := ⟨steps - 1, by omega⟩
    rw [escapeChars, List.append_assoc, readString_escapeChar, ih (by omega)]
    rfl

/-- Escaping shortens no text, so that the steps for the text suffice. -/
theorem length_le_escapeChars (cs : List Char) : cs.length ≤ (escapeChars cs).length := by
  induction cs with
  | nil => exact Nat.le_refl 0
  | cons c cs ih =>
    have hpos : 0 < (escapeChar c cs).length := by
      rcases escapeChar_cases c cs with ⟨hplain, -⟩ | ⟨ds, hds, -⟩
      · simp [hplain]
      · simp [hds]
    rw [escapeChars, List.length_append, List.length_cons]
    omega

/-- A text as it is written in code is a literal that stands for that text. -/
def Literal.ofText (s : String) : Literal where
  written := stringLiteral s
  content := s
  reads := by
    have hlength := length_le_escapeChars s.toList
    have hread := readString_escapeChars s.toList []
      (Nat.lt_succ_of_le (hlength.trans (by simp : _ ≤ (escapeChars s.toList ++ ['"']).length)))
    have hwritten := written_append ('"' :: (escapeChars s.toList ++ ['"'])) []
    rw [stringLiteral, String.toList_ofList, List.cons_append, readToken, if_pos rfl, hread]
    simpa [stringToken, dropSuffix, readIdentifier] using hwritten

end AtomicCss.Inline
