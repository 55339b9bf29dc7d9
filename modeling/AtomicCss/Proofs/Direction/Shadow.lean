import AtomicCss.Direction
import AtomicCss.Proofs.Value.Split
import AtomicCss.Proofs.Value.Whitespace

/-!
# Shadows turned around

The value of a shadow is read, the signs of the horizontal offsets are changed and the nodes are
written again. In a canonical value the first number of a shadow has no plus sign, for a plus sign
is left only behind another number. So a sign is taken away or put in front and nothing else
happens: the text is read as the nodes with the other signs, and the same again gives the value
back.

* `Dimension.signed`: digits with a minus sign or without; `Dimension.exists_signed` says that
  numbers without a plus sign are of this form.
* `Node.shadows`, `Node.turnFirst`: the shadows of a list, and a shadow with its first number turned
  around.
* `Node.shadows_flipOffsets`: flipping turns around the first number of each shadow.
* `Node.allFit_flipOffsets`, `Node.flipOffsets_flipOffsets`: the nodes are still tokens, and
  flipping them twice changes nothing.
* `flipShadow_normalValue`: flipping the canonical value of a shadow.
-/

namespace AtomicCss

/-! ### Signs -/

namespace Dimension

/-- The number with its minus sign taken away, or with one put in front if it has none. -/
def toggled (d : Dimension) : Dimension :=
  match d.number.toList with
  | '-' :: rest => { d with number := String.ofList rest }
  | cs => { d with number := String.ofList ('-' :: cs) }

/-- The number with the other sign, unless it is zero. -/
def turned (d : Dimension) : Dimension :=
  if d.isZero then d else d.toggled

/-- Digits with a minus sign or without. -/
def signed (negative : Bool) (digits : List Char) (unit : String) : Dimension :=
  ⟨String.ofList (if negative then '-' :: digits else digits), unit⟩

/-- A number without a plus sign is made of digits with a minus sign or without. -/
theorem exists_signed {d : Dimension} (hd : d.IsWritten)
    (hplus : d.number.toList.head? ≠ some '+') :
    ∃ negative digits, IsUnsigned digits ∧ d = signed negative digits d.unit := by
  have hshape : ∀ cs, IsNumber cs → cs.head? ≠ some '+' →
      ∃ (negative : Bool) (digits : List Char), IsUnsigned digits ∧
        cs = if negative then '-' :: digits else digits := by
    intro cs hcs hplus
    cases hcs with
    | unsigned h => exact ⟨false, cs, h, rfl⟩
    | @signed sign digits hsign h =>
      rcases hsign with rfl | rfl
      · exact absurd rfl hplus
      · exact ⟨true, digits, h, rfl⟩
  obtain ⟨negative, digits, hdigits, hnumber⟩ := hshape _ hd.number hplus
  refine ⟨negative, digits, hdigits, ?_⟩
  rw [signed, ← hnumber, String.ofList_toList]

section Signed

variable {negative : Bool} {digits : List Char} {unit : String}

/-- Digits with a sign and a unit can be written as a number. -/
theorem isWritten_signed (hdigits : IsUnsigned digits) (hunit : IsUnit unit.toList) :
    (signed negative digits unit).IsWritten where
  number := by
    rw [signed, String.toList_ofList]
    cases negative with
    | true => exact .signed (.inr rfl) hdigits
    | false => exact .unsigned hdigits
  unit := hunit

/-- The sign does not decide whether a number is zero. -/
theorem isZero_signed (hdigits : IsUnsigned digits) :
    (signed negative digits unit).isZero = (unsignedMagnitude digits == 0.0) := by
  rw [isZero, magnitude, signed, String.toList_ofList, hdigits.splitSign_signed]

theorem toggled_signed (hdigits : IsUnsigned digits) :
    (signed negative digits unit).toggled = signed (!negative) digits unit := by
  cases negative with
  | true => simp [toggled, signed]
  | false =>
    obtain ⟨c, cs, rfl⟩ := List.exists_cons_of_ne_nil hdigits.ne_nil
    have hc : c ≠ '-' := fun hc => hdigits.not_sign (by simp [hc])
    simp [toggled, signed, hc]

/-- Negation is toggling on numbers written without a plus sign. -/
theorem negate_signed (hdigits : IsUnsigned digits) :
    (signed negative digits unit).negate = signed (!negative) digits unit := by
  cases negative with
  | true => simp [negate, signed]
  | false =>
    obtain ⟨c, cs, rfl⟩ := List.exists_cons_of_ne_nil hdigits.ne_nil
    have hc : c ≠ '-' ∧ c ≠ '+' := by
      constructor <;> exact fun hc => hdigits.not_sign (by simp [hc])
    simp [negate, signed, hc.1, hc.2]

/-- Characters that belong to no name are found in the digits and the unit. -/
theorem exists_not_isNameChar_signed :
    (∃ c ∈ (signed negative digits unit).chars, isNameChar c = false) ↔
      ∃ c ∈ digits ++ unit.toList, isNameChar c = false := by
  have hdash : isNameChar '-' = true := by decide
  rw [chars, signed, String.toList_ofList]
  cases negative with
  | true => simp [hdash]
  | false => rfl

end Signed

/-- What the number `e` that `d` is flipped to has in common with it, and that flipping `e` gives
`d` back. -/
structure Turns (d e : Dimension) : Prop where
  isWritten : e.IsWritten
  unit_eq : e.unit = d.unit
  names : (∃ c ∈ d.chars, isNameChar c = false) → ∃ c ∈ e.chars, isNameChar c = false
  flip_eq : e.flip = d

/-- Numbers without a plus sign are flipped by changing their sign, unless they are zero. -/
theorem flip_eq_turned {d : Dimension} (hd : d.IsWritten)
    (hplus : d.number.toList.head? ≠ some '+') : d.flip = d.turned := by
  obtain ⟨negative, digits, hdigits, heq⟩ := exists_signed hd hplus
  rw [heq, flip, turned, negate_signed hdigits, toggled_signed hdigits]

/-- Flipping a number without a plus sign keeps what its neighbours see of it, and can be undone. -/
theorem turns_flip {d : Dimension} (hd : d.IsWritten)
    (hplus : d.number.toList.head? ≠ some '+') : Turns d d.flip := by
  obtain ⟨negative, digits, hdigits, heq⟩ := exists_signed hd hplus
  have hunit := hd.unit
  generalize d.unit = unit at heq hunit
  subst heq
  rw [flip, isZero_signed hdigits, negate_signed hdigits]
  cases hzero : unsignedMagnitude digits == 0.0 with
  | true =>
    refine ⟨hd, rfl, id, ?_⟩
    rw [if_pos rfl, flip, isZero_signed hdigits, hzero, if_pos rfl]
  | false =>
    refine ⟨isWritten_signed hdigits hunit, rfl, ?_, ?_⟩
    · rw [exists_not_isNameChar_signed]
      exact exists_not_isNameChar_signed.2
    · rw [if_neg (by simp), flip, isZero_signed hdigits, hzero, if_neg (by simp),
        negate_signed hdigits, Bool.not_not]

end Dimension

namespace Node

variable {next : Option Char} {pending behind : Bool} {n : Node} {ns : List Node}

/-! ### Shadows in a list -/

/-- The shadows of a list: the nodes between commas. -/
def shadows (ns : List Node) : List (List Node) :=
  Text.cutAt (isDivider ',') ns

/-- The nodes with the first number among them turned around. -/
def turnFirst : List Node → List Node
  | [] => []
  | .number d :: ns => .number d.turned :: ns
  | n :: ns => n :: turnFirst ns

theorem number_cases (n : Node) : (∃ d, n = .number d) ∨ ∀ d, n ≠ .number d := by
  cases n with
  | number d => exact .inl ⟨d, rfl⟩
  | _ => exact .inr (by rintro _ ⟨⟩)

/-- Nodes in front of the first number are passed over. -/
theorem turnFirst_cons (hn : ∀ d, n ≠ .number d) (ns : List Node) :
    turnFirst (n :: ns) = n :: turnFirst ns := by
  cases n with
  | number d => exact absurd rfl (hn d)
  | _ => rfl

/-- A comma is what makes the next number a horizontal offset. -/
theorem flipOffsets_cons (hn : ∀ d, n ≠ .number d) (pending : Bool) (ns : List Node) :
    flipOffsets pending (n :: ns) = n :: flipOffsets (pending || n.isDivider ',') ns := by
  cases n with
  | number d => exact absurd rfl (hn d)
  | divider mark =>
    by_cases hmark : mark = ','
    · simp [flipOffsets, isDivider, hmark]
    · simp [flipOffsets, isDivider, hmark, beq_eq_false_iff_ne.2 hmark]
  | _ => simp [flipOffsets, isDivider]

/-- Behind a node that is no number, plus signs stand behind numbers as before. -/
theorem PlusBehindNumber.tail (h : PlusBehindNumber behind (n :: ns))
    (hn : ∀ d, n ≠ .number d) : PlusBehindNumber false ns := by
  cases n with
  | number d => exact absurd rfl (hn d)
  | _ => exact h

/-- The first number of a run has no plus sign. -/
theorem PlusBehindNumber.not_plus {d : Dimension}
    (h : PlusBehindNumber behind (.number d :: ns)) (hbehind : behind = false) :
    d.number.toList.head? ≠ some '+' :=
  fun hplus => absurd ((h.1 hplus).symm.trans hbehind) (by decide)

/-- Flipping turns around the first number of each shadow, but not that of the first shadow if its
first number came before. -/
theorem shadows_flipOffsets (hfit : AllFit next ns) (hplus : PlusBehindNumber behind ns)
    (hbehind : pending = true → behind = false) {first : List Node} {rest : List (List Node)}
    (hshadows : shadows ns = first :: rest) :
    shadows (flipOffsets pending ns) =
      (if pending then turnFirst first else first) :: rest.map turnFirst := by
  induction ns generalizing pending behind first rest with
  | nil =>
    obtain ⟨rfl, rfl⟩ : first = [] ∧ rest = [] := by simpa [shadows, Text.cutAt] using hshadows.symm
    cases pending <;> rfl
  | cons n ns ih =>
    obtain ⟨first', rest', htail⟩ := List.exists_cons_of_ne_nil
      (Text.cutAt_ne_nil (isDivider ',') ns)
    rcases number_cases n with ⟨d, rfl⟩ | hn
    · -- the number is the first of its shadow if it is still to come, and those behind it are not
      rw [shadows, Text.cutAt_cons_of_not_cut rfl htail] at hshadows
      obtain ⟨rfl, rfl⟩ := List.cons.inj hshadows
      have hns := ih hfit.2 hplus.2 (by simp : false = true → true = false) htail
      rw [flipOffsets, shadows, Text.cutAt_cons_of_not_cut rfl hns]
      cases pending with
      | false => rfl
      | true =>
        rw [if_pos rfl, if_pos rfl, turnFirst,
          Dimension.flip_eq_turned hfit.1.1 (hplus.not_plus (hbehind rfl))]
        rfl
    · have hns : shadows (flipOffsets (pending || n.isDivider ',') ns) = _ :: _ :=
        ih hfit.2 (hplus.tail hn) (fun _ => rfl) htail
      rw [flipOffsets_cons hn]
      cases hcomma : n.isDivider ',' with
      | true =>
        -- Behind a comma a new shadow begins, whose first number is still to come.
        rw [shadows, Text.cutAt_cons_of_cut hcomma] at hshadows ⊢
        obtain ⟨rfl, rfl⟩ := List.cons.inj hshadows
        rw [hcomma, Bool.or_true, if_pos rfl] at hns
        rw [Bool.or_true, htail, List.map_cons, ← hns]
        cases pending <;> rfl
      | false =>
        rw [shadows, Text.cutAt_cons_of_not_cut hcomma htail] at hshadows
        obtain ⟨rfl, rfl⟩ := List.cons.inj hshadows
        rw [hcomma, Bool.or_false] at hns
        rw [Bool.or_false, shadows, Text.cutAt_cons_of_not_cut hcomma hns, turnFirst_cons hn]
        cases pending <;> rfl

/-! ### Tokens -/

/-- A flipped number can stand where the number did. -/
theorem Fits.flip {d : Dimension} (h : Fits next (.number d))
    (hplus : d.number.toList.head? ≠ some '+') : Fits next (.number d.flip) := by
  have hturns := Dimension.turns_flip h.1 hplus
  exact ⟨hturns.isWritten, h.2.1, fun hopen => hturns.names (h.2.2.1 hopen),
    fun hpercent => hturns.unit_eq ▸ h.2.2.2 hpercent⟩

/-- Tokens other than numbers do not see which word or number follows them. -/
theorem Fits.of_seenAlike {seen seen' : Option Char} (h : Fits seen n) (hn : ∀ d, n ≠ .number d)
    (halike : SeenAlike seen seen') : Fits seen' n := by
  cases n with
  | word text => exact halike.eq_of_not_isWordChar h.2.1 ▸ h
  | number d => exact absurd rfl (hn d)
  | string quote content => exact h
  | call name args closed =>
    refine ⟨h.1, fun hclosed => ?_, h.2.2⟩
    obtain rfl := h.2.1 hclosed
    exact halike.eq_of_not_isWordChar (by simp)
  | space => exact halike.ne_space h
  | divider mark => exact h

/-- Numbers begin like numbers after flipping, and what is no horizontal offset is left alone. -/
theorem seenAlike_flipOffsets (hfit : AllFit next ns) (hplus : PlusBehindNumber behind ns)
    (hbehind : pending = true → behind = false) :
    SeenAlike (lookahead (charsAll ns)) (lookahead (charsAll (flipOffsets pending ns))) ∧
      (pending = false →
        lookahead (charsAll (flipOffsets pending ns)) = lookahead (charsAll ns)) := by
  cases ns with
  | nil => exact ⟨.inl rfl, fun _ => rfl⟩
  | cons n ns =>
    have hsame : ∀ ms, lookahead (charsAll (n :: ms)) = lookahead (charsAll (n :: ns)) := by
      intro ms
      rw [charsAll_cons, charsAll_cons, lookahead_append_of_ne_nil hfit.1.chars_ne_nil,
        lookahead_append_of_ne_nil hfit.1.chars_ne_nil]
    rcases number_cases n with ⟨d, rfl⟩ | hn
    · cases pending with
      | false => exact ⟨.inl (hsame _), fun _ => hsame _⟩
      | true =>
        have hd := hfit.1.1
        have hflip := (Dimension.turns_flip hd (hplus.not_plus (hbehind rfl))).isWritten
        exact ⟨seenAlike_append hd.chars_ne_nil hflip.chars_ne_nil hd.wordChars hflip.wordChars _ _,
          by simp⟩
    · rw [flipOffsets_cons hn]
      exact ⟨.inl (hsame _), fun _ => hsame _⟩

/-- The nodes are tokens after flipping. -/
theorem allFit_flipOffsets (hfit : AllFit next ns) (hplus : PlusBehindNumber behind ns)
    (hbehind : pending = true → behind = false) : AllFit next (flipOffsets pending ns) := by
  induction ns generalizing pending behind with
  | nil => trivial
  | cons n ns ih =>
    rcases number_cases n with ⟨d, rfl⟩ | hn
    · have hoff : false = true → true = false := by simp
      refine ⟨?_, ih hfit.2 hplus.2 hoff⟩
      rw [(seenAlike_flipOffsets hfit.2 hplus.2 hoff).2 rfl]
      cases pending with
      | false => exact hfit.1
      | true => exact hfit.1.flip (hplus.not_plus (hbehind rfl))
    · rw [flipOffsets_cons hn]
      have htail := hplus.tail hn
      exact ⟨hfit.1.of_seenAlike hn ((seenAlike_flipOffsets hfit.2 htail fun _ => rfl).1.or next),
        ih hfit.2 htail fun _ => rfl⟩

/-- Flipping twice changes nothing. -/
theorem flipOffsets_flipOffsets (hfit : AllFit next ns) (hplus : PlusBehindNumber behind ns)
    (hbehind : pending = true → behind = false) :
    flipOffsets pending (flipOffsets pending ns) = ns := by
  induction ns generalizing pending behind with
  | nil => rfl
  | cons n ns ih =>
    rcases number_cases n with ⟨d, rfl⟩ | hn
    · rw [flipOffsets, flipOffsets, ih hfit.2 hplus.2 (by simp)]
      cases pending with
      | false => rfl
      | true =>
        rw [if_pos rfl, if_pos rfl,
          (Dimension.turns_flip hfit.1.1 (hplus.not_plus (hbehind rfl))).flip_eq]
    · rw [flipOffsets_cons hn, flipOffsets_cons hn, ih hfit.2 (hplus.tail hn) fun _ => rfl]

end Node

/-! ### Values -/

/-- Flipping a shadow that is read is flipping the offsets of its nodes. -/
theorem flipShadow_of_parse {v : String} {ns : List Node} (h : parseValue v = .ok ns) :
    flipShadow v = Node.render (flipOffsets true ns) := by
  rw [flipShadow, h]

/-- Flipping the canonical value of a shadow twice gives it back. Flipped once, it is read as the
same nodes, but for the first number of each shadow: that one has the other sign, unless it is
zero. -/
theorem flipShadow_normalValue {options : Options} {property raw v : String}
    (hproperty : property = "box-shadow" ∨ property = "text-shadow")
    (h : normalValue options property raw = .ok v) :
    flipShadow (flipShadow v) = v ∧
      ∃ ns ms, parseValue v = .ok ns ∧ parseValue (flipShadow v) = .ok ms ∧
        Node.shadows ms = (Node.shadows ns).map Node.turnFirst := by
  have htextual : Property.textual.contains property = false := by
    rcases hproperty with rfl | rfl <;> decide
  obtain ⟨ns, hparse, rfl, -, hplus⟩ := exists_nodes_of_normalValue htextual h
  have hfit := parseValue_render_iff.1 hparse
  have hflip : parseValue (Node.render (flipOffsets true ns)) = .ok (flipOffsets true ns) :=
    parseValue_render_iff.2 (Node.allFit_flipOffsets hfit hplus fun _ => rfl)
  rw [flipShadow_of_parse hparse]
  constructor
  · rw [flipShadow_of_parse hflip, Node.flipOffsets_flipOffsets hfit hplus fun _ => rfl]
  · obtain ⟨first, rest, hshadows⟩ := List.exists_cons_of_ne_nil
      (Text.cutAt_ne_nil (Node.isDivider ',') ns)
    refine ⟨ns, _, hparse, hflip, ?_⟩
    rw [Node.shadows_flipOffsets hfit hplus (fun _ => rfl) hshadows, Node.shadows, hshadows]
    rfl

/-- A plus sign that is dropped, a comma in a call, an offset of zero and a keyword in front. -/
theorem flipShadow_normalValue_list :
    let v := "f(1,2)1px,0 3px,inset -.5"
    normalValue {} "box-shadow" "f(1, 2)+1px,0 3px,inset -.5" = .ok v ∧
      flipShadow v = "f(1,2)-1px,0 3px,inset .5" ∧ flipShadow (flipShadow v) = v ∧
      ∃ ns ms, parseValue v = .ok ns ∧ parseValue (flipShadow v) = .ok ms ∧
        Node.shadows ms = (Node.shadows ns).map Node.turnFirst := by
  intro v
  have hraw : parseValue "f(1, 2)+1px,0 3px,inset -.5" = .ok
      [.call "f" [.number ⟨"1", ""⟩, .divider ',', .space, .number ⟨"2", ""⟩] true,
        .number ⟨"+1", "px"⟩, .divider ',', .number ⟨"0", ""⟩, .space, .number ⟨"3", "px"⟩,
        .divider ',', .word "inset", .space, .number ⟨"-.5", ""⟩] := by
    cbv
  have hv : parseValue v = .ok
      [.call "f" [.number ⟨"1", ""⟩, .divider ',', .number ⟨"2", ""⟩] true,
        .number ⟨"1", "px"⟩, .divider ',', .number ⟨"0", ""⟩, .space, .number ⟨"3", "px"⟩,
        .divider ',', .word "inset", .space, .number ⟨"-.5", ""⟩] := by
    cbv
  have hvalue : normalValue {} "box-shadow" "f(1, 2)+1px,0 3px,inset -.5" = .ok v :=
    (normalValue_eq_ok (by decide)).2 ⟨by decide, _, hraw, by decide, by decide⟩
  refine ⟨hvalue, ?_, flipShadow_normalValue (.inl rfl) hvalue⟩
  rw [flipShadow_of_parse hv]
  decide

end AtomicCss
