import AtomicCss.Proofs.Expansion.Shorthand
import AtomicCss.Proofs.Value.Split
import AtomicCss.Proofs.Value.Whitespace

/-!
# Numbers and their texts

A number is written with the unit of its property before anything else is done with it. What is
written is a single token: a number, or a word for the infinities and for not-a-number. So it always
has a canonical form and is never split, and a number given to a property is the same as its text,
also where the text goes to the longhands in parts and the number to each of them.

* `Node.isPart_bare`: a word or a number on its own is one part of a value.
* `exists_bare_numberText`: the text of a number is such a token.
* `normalValue_numberText`: it has a canonical form, whatever the property.
* `numberUnit_longhand`: a shorthand and its longhands take the same unit.
* `expandText_numberText`: the text declares what the number declares, under every path.
* `expandProperty_number`: a property with a number and with the text of the number.
-/

namespace AtomicCss

open Text (Stops)

/-! ### Single tokens -/

namespace Node

/-- Whether the node is a word or a number. -/
def isBare : Node → Bool
  | .word _ | .number _ => true
  | _ => false

variable {n : Node}

/-- A word or a number is made of word characters. -/
theorem Fits.wordChars_of_isBare {next : Option Char} (h : n.Fits next) (hn : n.isBare = true) :
    ∀ c ∈ n.chars, isWordChar c = true := by
  cases n with
  | word text => exact h.1.chars
  | number d => exact h.1.wordChars
  | _ => cases hn

/-- A word or a number on its own is one part of a value. -/
theorem isPart_bare (h : n.Fits none) (hn : n.isBare = true) : IsPart [n] := by
  have hspace : n.isSpace = false := by
    cases n with
    | word | number => rfl
    | _ => cases hn
  have hlast : Stops Text.isBlank (charsAll [n]).reverse := by
    intro c hc
    have hword := h.wordChars_of_isBare hn c (by simpa using List.mem_of_mem_head? hc)
    simp_all [isWordChar]
  have hall : ∀ m ∈ [n], m.isSpace = false := List.forall_mem_singleton.2 hspace
  exact ⟨⟨List.cons_ne_nil _ _, ⟨h, trivial⟩, fun m hm => hall m (List.mem_of_mem_head? hm), hlast⟩,
    hall⟩

/-- A word or a number that stands alone is read back as it is. -/
theorem parseValue_bare (h : n.Fits none) : parseValue (render [n]) = .ok [n] :=
  parseValue_render_iff.2 ⟨h, trivial⟩

theorem hasTopLevelSlash_bare (h : n.Fits none) (hn : n.isBare = true) :
    hasTopLevelSlash (render [n]) = false := by
  rw [hasTopLevelSlash, parseValue_bare h]
  cases n with
  | word | number => rfl
  | _ => cases hn

/-- A word or a number has a canonical form as a value of every property. -/
theorem exists_normalValue_bare (options : Options) (property : String) (h : n.Fits none)
    (hn : n.isBare = true) : ∃ value, normalValue options property (render [n]) = .ok value := by
  have hclosed : anyUnclosed [n] = false := by
    cases n with
    | word | number => rfl
    | _ => cases hn
  by_cases hproperty : property ∈ Property.textual
  · rw [normalValue_of_mem_textual hproperty]
    cases hcss : isCssContent (Text.trim (render [n])) with
    | true =>
      refine ⟨_, (normalText_of_isCssContent hcss).2 ⟨?_, rfl⟩⟩
      rw [(isPart_bare h hn).trim_render]
      exact ⟨[n], parseValue_bare h, hclosed⟩
    | false => exact ⟨_, normalText_of_not_isCssContent hcss⟩
  · have hblank : Text.isBlankText (render [n]) = false := by
      rw [isBlankText_eq (parseValue_bare h)]
      cases n with
      | word | number => rfl
      | _ => cases hn
    exact ⟨_, (normalValue_eq_ok (by simpa using hproperty)).2
      ⟨hblank, [n], parseValue_bare h, hclosed, rfl⟩⟩

end Node

open Node

/-! ### Written numbers -/

/-- Characters of a name without a digit among them are a word. -/
theorem isWord_of_isNameChar {cs : List Char} (hne : cs ≠ [])
    (h : ∀ c ∈ cs, isNameChar c = true ∧ c.isDigit = false) : IsWord cs := by
  refine ⟨hne, fun c hc => isWordChar_of_isNameChar (h c hc).1, ?_⟩
  by_contra hread
  -- A number that is read has a digit.
  obtain ⟨⟨l, rest⟩, hread⟩ := Option.ne_none_iff_exists'.1 hread
  obtain ⟨d, -, hd, rfl, -⟩ := exists_number_of_readNumberLexeme hread
  obtain ⟨c, hc, hdigit⟩ := hd.number.exists_digit
  rw [(h c (by simp [Dimension.chars, hc])).2] at hdigit
  cases hdigit

/-- The unit that a number is given is made of letters. -/
theorem Property.isAlpha_numberUnit (property : String) :
    (numberUnit property).toList.all Char.isAlpha = true := by
  unfold numberUnit
  split
  · decide
  · split <;> decide

/-- The infinities and not-a-number are words, and their units do not change this. -/
theorem isWord_of_not_finite {word : String} (hword : word ∈ ["inf", "-inf", "NaN"])
    (property : String) : IsWord (word ++ Property.numberUnit property).toList := by
  have hletters : ∀ word ∈ ["inf", "-inf", "NaN"], word.toList ≠ [] ∧
      word.toList.all (fun c => isNameChar c && !c.isDigit) = true := by decide
  obtain ⟨hne, hall⟩ := hletters word hword
  rw [String.toList_append]
  refine isWord_of_isNameChar (by simp [hne]) fun c hc => ?_
  rcases List.mem_append.1 hc with hc | hc
  · simpa using List.all_eq_true.1 hall c hc
  · have halpha := List.all_eq_true.1 (Property.isAlpha_numberUnit property) c hc
    exact ⟨isNameChar_of_isAlphanum (by simp [Char.isAlphanum, halpha]),
      Text.isDigit_of_isAlpha halpha⟩

/-- The text of a number with its unit is one token, a number or a word. -/
theorem exists_bare_numberText (property : String) (x : Float) :
    ∃ n : Node, n.Fits none ∧ n.isBare = true ∧ numberText property x = render [n] := by
  have hword : ∀ word ∈ ["inf", "-inf", "NaN"], formatNumber x = word →
      ∃ n : Node, n.Fits none ∧ n.isBare = true ∧ numberText property x = render [n] := by
    intro word hmem hx
    refine ⟨.word (numberText property x), fits_word_of_ends ?_ ends_none, rfl, ?_⟩
    · rw [numberText, hx]
      exact isWord_of_not_finite hmem property
    · simp [← String.toList_inj, chars]
  rcases Double.text_cases (Double.ofFloat (roundToPlaces x)) with hnumber | hinf | hinf | hnot
  · have hunit : IsUnit (Property.numberUnit property).toList :=
      isUnit_of_all (Property.isAlpha_numberUnit property)
    refine ⟨.number ⟨formatNumber x, Property.numberUnit property⟩,
      fits_number_of_ends ⟨hnumber, hunit⟩ ends_none, rfl, ?_⟩
    simp [← String.toList_inj, chars, numberText]
  · exact hword "inf" (by simp) hinf
  · exact hword "-inf" (by simp) hinf
  · exact hword "NaN" (by simp) (by rw [formatNumber, hnot]; rfl)

/-- The text of a number has a canonical form, also as a value of another property. -/
theorem exists_normalValue_numberText (options : Options) (target property : String) (x : Float) :
    ∃ value, normalValue options target (numberText property x) = .ok value := by
  obtain ⟨n, hfits, hbare, htext⟩ := exists_bare_numberText property x
  rw [htext]
  exact exists_normalValue_bare options target hfits hbare

/-- A number is always brought into its canonical form. -/
theorem normalValue_numberText (options : Options) (property : String) (x : Float) :
    normalValue options property (numberText property x) =
      .ok (normalNumber options property x) := by
  obtain ⟨value, hvalue⟩ := exists_normalValue_numberText options property property x
  rw [normalNumber, hvalue]

/-! ### Expansion -/

/-- A shorthand and its longhands take the same unit. -/
theorem numberUnit_longhand {property : String} {s : Shorthand}
    (hs : (property, s) ∈ Shorthand.table) {longhand : String}
    (hlonghand : longhand ∈ s.longhands) :
    Property.numberUnit longhand = Property.numberUnit property := by
  have hall : ∀ entry ∈ Shorthand.table, ∀ name ∈ entry.1 :: entry.2.longhands,
      Property.numberUnit name = "px" := by decide +kernel
  rw [hall _ hs _ (List.mem_cons_of_mem _ hlonghand), hall _ hs _ List.mem_cons_self]

/-- The text of a number declares what the number declares. -/
theorem expandText_numberText (options : Options) (property : String) (path : List Condition)
    (x : Float) :
    expandText options property path (numberText property x) =
      .ok (expandNumber options property path x) := by
  obtain ⟨n, hfits, hbare, htext⟩ := exists_bare_numberText property x
  cases hshorthand : shorthandFor? property with
  | none =>
    simp only [expandText, expandNumber, targets, hshorthand, expandPlain, normalValue_numberText]
    rfl
  | some s =>
    -- The text is one part and goes to all longhands, each of which takes the same unit.
    have hs : (property, s) ∈ Shorthand.table := mem_table_of_shorthandFor? hshorthand
    have helliptic : isElliptic property (numberText property x) = false := by
      rw [isElliptic, htext, hasTopLevelSlash_bare hfits hbare, Bool.and_false]
    have hsplit : splitValue (numberText property x) = .ok [numberText property x] := by
      rw [htext]
      exact (isPart_bare hfits hbare).splitValue_render
    have hvalue : ∀ longhand ∈ s.longhands,
        normalValue options longhand (numberText property x) =
          .ok (normalNumber options longhand x) := by
      intro longhand hlonghand
      rw [numberText, ← numberUnit_longhand hs hlonghand]
      exact normalValue_numberText options longhand x
    refine (expandText_shorthand_eq_ok_iff hs helliptic).2
      ⟨_, hsplit, Nat.le_refl 1, by cases s <;> simp [Shorthand.longhands], ?_⟩
    rw [expandParts_eq_ok_iff fun _ => shorthandFor?_of_mem_assigned hs,
      Shorthand.assigned_singleton, List.forall_mem_map, List.flatMap_map, expandNumber,
      targets_of_mem_table hs, List.map_eq_flatMap]
    refine ⟨fun longhand hlonghand => ⟨_, hvalue longhand hlonghand⟩, ?_⟩
    exact List.flatMap_congr fun longhand hlonghand => (declarations_expand_text_plain
      (shorthandFor?_longhand hs hlonghand) (hvalue longhand hlonghand)).symm

/-- A number and its text are walked through alike. -/
theorem walk_numberText (options : Options) (property : String) (path : List Condition)
    (x : Float) :
    walk options property path (.text (numberText property x)) =
      walk options property path (.number x) := by
  rw [walk, walk, expandText_numberText]
  rfl

/-- A number given to a property is the same as its text with the unit of the property, and the
text of a number has a canonical form as a value of every property. -/
theorem expandProperty_number (options : Options) (key : String) (x : Float) :
    let property := Property.dashed key
    expandProperty options property (.number x) =
      expandProperty options property (.text (formatNumber x ++ Property.numberUnit property)) ∧
    expandProperty options key (.number x) =
      expandProperty options key (.text (formatNumber x ++ Property.numberUnit property)) ∧
    ∀ target, normalValue options target (formatNumber x ++ Property.numberUnit target) =
      .ok (normalNumber options target x) := by
  intro property
  have hwalk : walk options property [] (.number x) =
      walk options property [] (.text (formatNumber x ++ Property.numberUnit property)) :=
    (walk_numberText options property [] x).symm
  refine ⟨?_, congrArg Expansion.mk hwalk, fun target => normalValue_numberText options target x⟩
  rw [expandProperty, expandProperty, Property.dashed_dashed, hwalk]

end AtomicCss
