import AtomicCss.Proofs.Value.Content
import AtomicCss.Proofs.Value.Spacing

/-!
# Splitting a value into its parts

A value is split at the gaps between its tokens, and each part is handed on as a text. The text is
read as the tokens that it was made from, for a token that ended at a gap ends at the end of the
text as well; and it has no blanks around it, for only a call that is not closed could end in one,
and such a call goes on to the end of the value.

* `lookahead_reverse_append`, `Reads.exists_read`: the last character that is read, and the one that
  is written for it.
* `Node.AllFit.of_append_left`: the first ones of tokens side by side are tokens on their own.
* `Node.IsTrimmed`: tokens whose text has no blanks around it; `Node.IsPart`: those without gaps.
* `Node.IsTrimmed.forall_isPart`: what lies between the gaps.
* `splitValue_faithful`: the parts are not split further, and joined by spaces they are the value.
-/

namespace AtomicCss

open Text (Stops)

/-! ### The last character -/

theorem lookahead_reverse_append (cs ds : List Char) :
    lookahead (cs ++ ds).reverse = (lookahead ds.reverse).or (lookahead cs.reverse) := by
  rw [List.reverse_append, lookahead_append]

/-- A character is seen as a blank if it is one. -/
theorem isBlank_seenAs (c : Char) : Text.isBlank (seenAs c) = Text.isBlank c := by
  rcases seenAs_cases c with ⟨hgap, hseen⟩ | ⟨hquote, hseen⟩ | ⟨-, -, hseen⟩
  · rw [hseen]
    rcases isGap_cases hgap with rfl | rfl | rfl | rfl <;> decide
  · rw [hseen]
    rcases isQuote_cases hquote with rfl | rfl <;> decide
  · rw [hseen]

theorem stops_isBlank_iff {cs : List Char} :
    Stops Text.isBlank cs ↔ ∀ c ∈ lookahead cs, Text.isBlank c = false := by
  cases cs with
  | nil => simp [Stops]
  | cons c cs => simp [Text.stops_cons, lookahead_cons, isBlank_seenAs]

/-- A token is written with the last character that it was read with, if all gaps look alike. -/
theorem Lexes.exists_token {cs rest : List Char} {l : Lexeme} (h : Lexes cs l rest) :
    ∃ token, cs = token ++ rest ∧ lookahead token.reverse = lookahead l.chars.reverse := by
  rcases h.chars_cases with rfl | ⟨rfl, gap, hne, hgap, rfl⟩
  · exact ⟨_, rfl, rfl⟩
  · refine ⟨gap, rfl, ?_⟩
    obtain ⟨c, ds, hreverse⟩ := List.exists_cons_of_ne_nil (List.reverse_ne_nil_iff.2 hne)
    have hc : isGap c = true := hgap c (List.mem_reverse.1 (by simp [hreverse]))
    rw [hreverse, lookahead_cons, seenAs, if_pos hc]
    rfl

/-- Nodes are written with the last character that they were read with, if all gaps look alike. -/
theorem Reads.exists_read {cs rest : List Char} {ns : List Node} (h : Reads cs ns rest) :
    ∃ read, cs = read ++ rest ∧ lookahead read.reverse = lookahead (Node.charsAll ns).reverse := by
  induction h with
  | done => exact ⟨[], rfl, rfl⟩
  | @leaf cs t rest n ns hl _ ih =>
    obtain ⟨token, rfl, htoken⟩ := hl.exists_token
    obtain ⟨read, rfl, hread⟩ := ih
    refine ⟨token ++ read, by simp, ?_⟩
    rw [Node.charsAll_cons, lookahead_reverse_append, lookahead_reverse_append, htoken, hread]
    rfl
  | @call cs t u rest name args ns hl _ _ ihargs ihns =>
    obtain ⟨token, rfl, htoken⟩ := hl.exists_token
    obtain ⟨read, rfl, hread⟩ := ihargs
    obtain ⟨read', hu', hread'⟩ := ihns
    generalize hclosing : (if (readClosing u).1 then [')'] else []) = closing
    have hu : u = closing ++ (readClosing u).2 := by
      rw [← hclosing]
      rcases readClosing_cases u with ⟨t, rfl, heq⟩ | ⟨_, heq⟩ <;> simp [heq]
    refine ⟨token ++ (read ++ (closing ++ read')), by rw [hu, hu']; simp, ?_⟩
    have hchars : Node.charsAll (.call name args (readClosing u).1 :: ns) =
        Lexeme.chars (.opening name) ++ (Node.charsAll args ++ (closing ++ Node.charsAll ns)) := by
      rw [← hclosing]
      simp [Lexeme.chars, Node.chars]
    rw [hchars]
    simp only [lookahead_reverse_append, htoken, hread, hread']

namespace Node

variable {next : Option Char}

/-- A token that is followed by something and is no gap does not end in a blank. -/
theorem Fits.exists_last_not_blank {n : Node} {c : Char} (h : n.Fits (some c))
    (hn : n.isSpace = false) : ∃ ds d, n.chars = ds ++ [d] ∧ Text.isBlank d = false := by
  have hwords : ∀ {cs : List Char}, cs ≠ [] → (∀ c ∈ cs, isWordChar c = true) →
      ∃ ds d, cs = ds ++ [d] ∧ Text.isBlank d = false := by
    intro cs hne hcs
    have hlast := hcs _ (List.getLast_mem hne)
    refine ⟨_, _, (List.dropLast_append_getLast hne).symm, ?_⟩
    simp_all [isWordChar]
  cases n with
  | word text => exact hwords h.1.ne_nil h.1.chars
  | number d => exact hwords h.1.chars_ne_nil h.1.wordChars
  | string quote content =>
    refine ⟨quote :: content.toList, quote, rfl, ?_⟩
    rcases isQuote_cases h.1 with rfl | rfl <;> decide
  | call name args closed =>
    cases closed with
    | false => cases h.2.1 rfl
    | true => exact ⟨name.toList ++ '(' :: charsAll args, ')', by simp [chars], by decide⟩
  | space => cases hn
  | divider mark =>
    refine ⟨[], mark, rfl, ?_⟩
    have hcases : mark = ',' ∨ mark = '/' := by simpa [Fits, isDividerMark] using h
    rcases hcases with rfl | rfl <;> decide

/-! ### Tokens on their own -/

/-- A token may be the last one. -/
theorem Fits.at_end {n : Node} (h : n.Fits next) : n.Fits none := by
  cases n with
  | word text => exact fits_word_of_ends h.1 ends_none
  | number d => exact fits_number_of_ends h.1 ends_none
  | call name args closed => exact ⟨h.1, fun _ => rfl, h.2.2⟩
  | string | divider => exact h
  | space => simp [Fits]

theorem AllFit.of_append_left {ns ms : List Node} (h : AllFit next (ns ++ ms)) :
    AllFit none ns := by
  induction ns with
  | nil => trivial
  | cons n ns ih =>
    refine ⟨?_, ih h.2⟩
    cases ns with
    | nil => exact h.1.at_end
    | cons m ns =>
      have hm : m.chars ≠ [] := h.2.1.chars_ne_nil
      have hn : Fits ((lookahead (charsAll (m :: ns ++ ms))).or next) n := h.1
      rw [charsAll_append, lookahead_append_of_ne_nil (by simp [hm])] at hn
      obtain ⟨c, hc⟩ : ∃ c, lookahead (charsAll (m :: ns)) = some c :=
        Option.ne_none_iff_exists'.1 fun hnone => by simp [lookahead_eq_none, hm] at hnone
      rw [hc] at hn ⊢
      exact hn

theorem AllFit.of_append_right {ns ms : List Node} (h : AllFit next (ns ++ ms)) :
    AllFit next ms := by
  induction ns with
  | nil => exact h
  | cons n ns ih => exact ih h.2

end Node

/-! ### Parts -/

namespace Text

variable {α : Type} {p : α → Bool}

theorem cutAt_cons_of_cut {a : α} (ha : p a = true) (as : List α) :
    cutAt p (a :: as) = [] :: cutAt p as := by
  rw [cutAt, if_pos ha]

theorem cutAt_cons_of_not_cut {a : α} {as piece : List α} {pieces : List (List α)}
    (ha : p a = false) (h : cutAt p as = piece :: pieces) :
    cutAt p (a :: as) = (a :: piece) :: pieces := by
  rw [cutAt, if_neg (by simp [ha]), h]

theorem cutAt_of_forall {as : List α} (h : ∀ a ∈ as, p a = false) : cutAt p as = [as] := by
  induction as with
  | nil => rfl
  | cons a as ih =>
    rw [cutAt, if_neg (by simp [h a]), ih fun b hb => h b (List.mem_cons_of_mem _ hb)]

theorem cutAt_append_cons {as bs : List α} {a : α} (has : ∀ a ∈ as, p a = false)
    (ha : p a = true) : cutAt p (as ++ a :: bs) = as :: cutAt p bs := by
  induction as with
  | nil => simp [cutAt, ha]
  | cons b as ih =>
    rw [List.cons_append, cutAt, if_neg (by simp [has b]),
      ih fun c hc => has c (List.mem_cons_of_mem _ hc)]

/-- A list is cut nowhere, or there is a first cut. -/
theorem cut_cases (p : α → Bool) (as : List α) :
    (∀ a ∈ as, p a = false) ∨
      ∃ before a after, as = before ++ a :: after ∧ (∀ b ∈ before, p b = false) ∧ p a = true := by
  induction as with
  | nil => exact .inl (by simp)
  | cons a as ih =>
    cases ha : p a with
    | true => exact .inr ⟨[], a, as, rfl, by simp, ha⟩
    | false =>
      rcases ih with hall | ⟨before, b, after, rfl, hbefore, hb⟩
      · exact .inl (List.forall_mem_cons.2 ⟨ha, hall⟩)
      · exact .inr ⟨a :: before, b, after, rfl, List.forall_mem_cons.2 ⟨ha, hbefore⟩, hb⟩

end Text

namespace Node

/-- Tokens whose text has no blanks around it. -/
structure IsTrimmed (ns : List Node) : Prop where
  ne_nil : ns ≠ []
  fits : AllFit none ns
  first : ∀ n ∈ ns.head?, n.isSpace = false
  last : Stops Text.isBlank (charsAll ns).reverse

/-- Such tokens without a gap among them: one part of a value. -/
structure IsPart (ns : List Node) : Prop extends IsTrimmed ns where
  uncut : ∀ n ∈ ns, n.isSpace = false

/-- Nodes without spaces at their ends are written without blanks at the ends. -/
theorem IsTrimmed.trim_render {ns : List Node} (h : IsTrimmed ns) :
    Text.trim (render ns) = render ns := by
  obtain ⟨n, ms, rfl⟩ := List.exists_cons_of_ne_nil h.ne_nil
  obtain ⟨c, cs, hchars, hc⟩ := h.fits.1.exists_head_not_blank (h.first n rfl)
  have hfirst : Stops Text.isBlank (charsAll (n :: ms)) := by
    rw [charsAll_cons, hchars]
    exact Text.stops_cons.2 hc
  rw [Text.trim, toList_render, Text.trimBoth_eq_self hfirst h.last]
  rfl

theorem IsTrimmed.render_ne_empty {ns : List Node} (h : IsTrimmed ns) : render ns ≠ "" := by
  obtain ⟨n, ms, rfl⟩ := List.exists_cons_of_ne_nil h.ne_nil
  intro hempty
  have hnil : charsAll (n :: ms) = [] := by rw [← toList_render, hempty]; rfl
  exact h.fits.1.chars_ne_nil (List.append_eq_nil_iff.1 hnil).1

/-- A part is not split. -/
theorem IsPart.splitValue_render {ns : List Node} (h : IsPart ns) :
    splitValue (render ns) = .ok [render ns] := by
  have hkept : [ns].filter (!·.isEmpty) = [ns] :=
    List.filter_eq_self.2 (List.forall_mem_singleton.2 (by simpa using h.ne_nil))
  rw [splitValue, h.trim_render, parseValue_render_iff.2 h.fits, Except.map,
    Text.cutAt_of_forall h.uncut, hkept]
  rfl

/-- A gap ends a part. -/
theorem stops_reverse_of_space {ns ms : List Node} (hne : ns ≠ [])
    (huncut : ∀ n ∈ ns, n.isSpace = false) (h : AllFit next (ns ++ .space :: ms)) :
    Stops Text.isBlank (charsAll ns).reverse := by
  obtain ⟨ns', n, rfl⟩ : ∃ ns' n, ns = ns' ++ [n] :=
    ⟨_, _, (List.dropLast_append_getLast hne).symm⟩
  rw [List.append_assoc] at h
  obtain ⟨ds, d, hchars, hd⟩ := h.of_append_right.1.exists_last_not_blank (huncut n (by simp))
  rw [charsAll_append, charsAll_cons, hchars]
  simpa using Text.stops_cons.2 hd

/-- What stands before the first gap is a part, and what follows it is trimmed again. -/
theorem IsTrimmed.cut {part rest : List Node} (h : IsTrimmed (part ++ .space :: rest))
    (huncut : ∀ n ∈ part, n.isSpace = false) : IsPart part ∧ IsTrimmed rest := by
  have hpart : part ≠ [] := by
    rintro rfl
    cases h.first .space rfl
  have hspace : AllFit none (.space :: rest) := h.fits.of_append_right
  constructor
  · exact ⟨⟨hpart, h.fits.of_append_left, fun n hn => huncut n (List.mem_of_mem_head? hn),
      stops_reverse_of_space hpart huncut h.fits⟩, huncut⟩
  · refine ⟨?_, hspace.2, fun n hn => ?_, ?_⟩
    · rintro rfl
      have hblank := stops_isBlank_iff.1 h.last ' ' (by simp [chars, lookahead_cons]; rfl)
      exact absurd hblank (by decide)
    · obtain ⟨ms, rfl⟩ := List.head?_eq_some_iff.1 hn
      cases n with
      | space => exact absurd rfl hspace.1
      | _ => rfl
    · exact h.last.shorten (List.reverse_prefix.2 ⟨charsAll part ++ [' '], by simp [chars]⟩)

/-- Trimmed nodes are cut into parts, and the gaps between them are all that is lost. -/
theorem IsTrimmed.forall_isPart {ns : List Node} (h : IsTrimmed ns) :
    (∀ part ∈ Text.cutAt isSpace ns, IsPart part) ∧
      [' '].intercalate ((Text.cutAt isSpace ns).map charsAll) = charsAll ns := by
  -- The first part ends at the first gap, and what follows the gap is shorter.
  induction hlength : ns.length using Nat.strongRecOn generalizing ns with
  | ind length ih =>
    rcases Text.cut_cases isSpace ns with huncut | ⟨part, gap, rest, rfl, huncut, hgap⟩
    · rw [Text.cutAt_of_forall huncut]
      exact ⟨List.forall_mem_singleton.2 ⟨h, huncut⟩, by simp⟩
    · obtain rfl : gap = .space := by
        cases gap with
        | space => rfl
        | _ => cases hgap
      obtain ⟨hpart, hrest⟩ := h.cut huncut
      obtain ⟨hparts, hjoined⟩ := ih rest.length (by simp at hlength; omega) hrest rfl
      rw [Text.cutAt_append_cons huncut rfl]
      refine ⟨List.forall_mem_cons.2 ⟨hpart, hparts⟩, ?_⟩
      rw [List.map_cons, List.intercalate_cons_of_ne_nil (by simp [Text.cutAt_ne_nil]), hjoined]
      simp [chars]

end Node

open Node

/-- The nodes of a text without blanks around it. -/
theorem isTrimmed_of_parseValue {s : String} {ns : List Node}
    (h : parseValue (Text.trim s) = .ok ns) (hne : ns ≠ []) : IsTrimmed ns := by
  have hreads := parseValue_eq_ok.1 h
  have htrim : (Text.trim s).toList = Text.trimBoth Text.isBlank s.toList := String.toList_ofList
  rw [htrim] at hreads
  obtain ⟨hfits, hsees⟩ := hreads.allFit (.inl rfl)
  refine ⟨hne, hfits, fun n hn => ?_, ?_⟩
  · have hfirst := stops_isBlank_iff.1 (Text.stops_trimBoth Text.isBlank s.toList)
    obtain ⟨ms, rfl⟩ := List.head?_eq_some_iff.1 hn
    cases n with
    | space =>
      rw [hsees] at hfirst
      exact absurd (hfirst ' ' rfl) (by decide)
    | _ => rfl
  · obtain ⟨read, hread, hlast⟩ := hreads.exists_read
    rw [List.append_nil] at hread
    rw [stops_isBlank_iff, ← hlast, ← hread]
    exact stops_isBlank_iff.1 (Text.stops_reverse_trimBoth _ _)

/-- The parts of a value are not empty and are not split further, and joined by spaces they are read
as the value. -/
theorem splitValue_faithful {s : String} {parts : List String} (h : splitValue s = .ok parts) :
    (∀ part ∈ parts, part ≠ "" ∧ splitValue part = .ok [part]) ∧
      parseValue (String.intercalate " " parts) = parseValue (Text.trim s) := by
  obtain ⟨ns, hparse, rfl⟩ := Outcome.map_eq_ok.1 h
  rw [hparse]
  by_cases hne : ns = []
  · subst hne
    exact ⟨by simp [Text.cutAt], parseValue_eq_ok.2 (.done rfl)⟩
  · have htrimmed := isTrimmed_of_parseValue hparse hne
    obtain ⟨hparts, hjoined⟩ := htrimmed.forall_isPart
    -- The value was trimmed and its gaps are apart, so no piece between them is empty.
    have hkept : (Text.cutAt isSpace ns).filter (!·.isEmpty) = Text.cutAt isSpace ns :=
      List.filter_eq_self.2 fun part hpart => by simpa using (hparts part hpart).ne_nil
    rw [hkept]
    constructor
    · intro text htext
      obtain ⟨part, hpart, rfl⟩ := List.mem_map.1 htext
      exact ⟨(hparts part hpart).render_ne_empty, (hparts part hpart).splitValue_render⟩
    · have hrender :
          String.intercalate " " ((Text.cutAt isSpace ns).map render) = render ns := by
        rw [← String.toList_inj, String.toList_intercalate, List.map_map, toList_render, ← hjoined]
        exact congrArg _ (List.map_congr_left fun _ _ => toList_render _)
      rw [hrender]
      exact parseValue_render_iff.2 htrimmed.fits

/-- A call and a string keep their spaces, and the last part is a call that is not closed. -/
theorem splitValue_faithful_unclosed :
    let s := "\tf(a  b)/1 ' ' url( x"
    let parts := ["f(a b)/1", "' '", "url( x"]
    splitValue s = .ok parts ∧ splitValue "url( x" = .ok ["url( x"] ∧
      parseValue "f(a b)/1 ' ' url( x" = parseValue (Text.trim s) := by
  intro s parts
  have h : splitValue s = .ok parts := by cbv
  obtain ⟨hparts, hjoined⟩ := splitValue_faithful h
  exact ⟨h, (hparts "url( x" (by decide)).2, hjoined⟩

end AtomicCss
