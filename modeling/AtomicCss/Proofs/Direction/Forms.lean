import AtomicCss.Proofs.Direction.Position
import AtomicCss.Proofs.Direction.Shadow
import AtomicCss.Proofs.Expansion.Leaves
import AtomicCss.Rule

/-!
# Physical forms are told apart by their texts

If the physical forms of a declaration differ then their texts part at some character, so that none
of them is the beginning of the other: `left` and `right` part at once, and so do a number and the
number with the other sign. Whatever is written around them, declarations in a row are therefore
written alike in both directions only if every one of them is.

* `Text.Aligned`: texts of which none is the beginning of the other, unless they are the same. What
  is put together from aligned texts is compared part by part.
* `Direction.aligned_property`, `Direction.aligned_value`: the names and the canonical values of the
  two directions are aligned.
* `Declaration.aligned_body`, `Declaration.body_physical_eq_iff`: so are the declarations, and their
  texts are the same only if the physical forms are.
-/

namespace AtomicCss

/-! ### Aligned texts -/

namespace Text

/-- Texts of which none is the beginning of the other, unless they are the same. -/
def Aligned (s t : List Char) : Prop :=
  s <+: t ∨ t <+: s → s = t

instance (s t : List Char) : Decidable (Aligned s t) :=
  inferInstanceAs (Decidable (s <+: t ∨ t <+: s → s = t))

section Aligned

variable {s t u v : List Char}

theorem aligned_refl (s : List Char) : Aligned s s :=
  fun _ => rfl

theorem aligned_of_cons_ne {c d : Char} (h : c ≠ d) (s t : List Char) :
    Aligned (c :: s) (d :: t) := by
  rintro (hbegins | hbegins)
  · exact absurd (List.cons_prefix_cons.1 hbegins).1 h
  · exact absurd (List.cons_prefix_cons.1 hbegins).1 h.symm

/-- Aligned texts end at the same place, whatever follows them. -/
theorem Aligned.append_inj (h : Aligned s t) (heq : s ++ u = t ++ v) : s = t ∧ u = v := by
  have hs : s <+: t ++ v := heq ▸ List.prefix_append s u
  have hbegins := List.prefix_or_prefix_of_prefix hs (List.prefix_append t v)
  obtain rfl := h hbegins
  exact ⟨rfl, List.append_cancel_left heq⟩

/-- Aligned beginnings split an equation of texts into two. -/
theorem Aligned.append_eq_iff (h : Aligned s t) : s ++ u = t ++ v ↔ s = t ∧ u = v :=
  ⟨h.append_inj, fun heq => by rw [heq.1, heq.2]⟩

theorem Aligned.append (h : Aligned s t) (h' : Aligned u v) : Aligned (s ++ u) (t ++ v) := by
  rintro (⟨rest, hrest⟩ | ⟨rest, hrest⟩)
  · rw [List.append_assoc] at hrest
    obtain ⟨rfl, htail⟩ := h.append_inj hrest
    rw [h' (.inl ⟨rest, htail⟩)]
  · rw [List.append_assoc] at hrest
    obtain ⟨rfl, htail⟩ := h.append_inj hrest.symm
    rw [h' (.inr ⟨rest, htail.symm⟩)]

end Aligned

section Rows

variable {α : Type} {l : List α}

/-- Rows of pairwise aligned texts are aligned. -/
theorem aligned_flatMap {f g : α → List Char} (h : ∀ a ∈ l, Aligned (f a) (g a)) :
    Aligned (l.flatMap f) (l.flatMap g) := by
  induction l with
  | nil => exact aligned_refl []
  | cons a l ih =>
    obtain ⟨ha, hl⟩ := List.forall_mem_cons.1 h
    rw [List.flatMap_cons, List.flatMap_cons]
    exact ha.append (ih hl)

/-- Rows of pairwise aligned texts are equal exactly when they are equal item by item. -/
theorem flatMap_eq_flatMap_iff {f g : α → List Char} (h : ∀ a ∈ l, Aligned (f a) (g a)) :
    l.flatMap f = l.flatMap g ↔ ∀ a ∈ l, f a = g a := by
  induction l with
  | nil => simp
  | cons a l ih =>
    obtain ⟨ha, hl⟩ := List.forall_mem_cons.1 h
    rw [List.flatMap_cons, List.flatMap_cons, ha.append_eq_iff, ih hl, List.forall_mem_cons]

/-- Rows of aligned texts with the same separator are aligned, and they are the same if the texts
are. -/
theorem aligned_intercalate {f g : α → String} (separator : String)
    (h : ∀ a ∈ l, Aligned (f a).toList (g a).toList) :
    Aligned (String.intercalate separator (l.map f)).toList
        (String.intercalate separator (l.map g)).toList ∧
      (String.intercalate separator (l.map f) = String.intercalate separator (l.map g) ↔
        ∀ a ∈ l, f a = g a) := by
  cases l with
  | nil => exact ⟨aligned_refl _, by simp⟩
  | cons a l =>
    obtain ⟨ha, hl⟩ := List.forall_mem_cons.1 h
    have hrest : ∀ b ∈ l, Aligned (separator.toList ++ (f b).toList)
        (separator.toList ++ (g b).toList) := fun b hb => (aligned_refl _).append (hl b hb)
    rw [← String.toList_inj, List.map_cons, List.map_cons, toList_intercalate_cons,
      toList_intercalate_cons, List.flatMap_map, List.flatMap_map, List.forall_mem_cons]
    refine ⟨ha.append (aligned_flatMap hrest), ?_⟩
    rw [ha.append_eq_iff, flatMap_eq_flatMap_iff hrest, String.toList_inj]
    refine and_congr_right fun _ => forall₂_congr fun b _ => ?_
    rw [List.append_cancel_left_eq, String.toList_inj]

end Rows

end Text

open Text (Aligned aligned_refl aligned_of_cons_ne)

/-! ### Shadows -/

/-- A number and the number that it is flipped to part at their first character. -/
theorem Dimension.aligned_flip {d : Dimension} (h : d.IsWritten) :
    Aligned d.chars d.flip.chars := by
  rw [flip]
  split
  · exact aligned_refl _
  · have hparts : ∀ cs, IsNumber cs → ∀ unit : List Char, Aligned (cs ++ unit)
        ((Dimension.negate ⟨String.ofList cs, d.unit⟩).number.toList ++ unit) := by
      intro cs hcs unit
      cases hcs with
      | unsigned hdigits =>
        obtain ⟨c, rest, rfl⟩ := List.exists_cons_of_ne_nil hdigits.ne_nil
        have hc : c ≠ '+' ∧ c ≠ '-' := by simpa using hdigits.not_sign
        simpa [negate, hc.1, hc.2] using aligned_of_cons_ne hc.2 _ _
      | @signed sign rest hsign hdigits =>
        obtain ⟨c, rest, rfl⟩ := List.exists_cons_of_ne_nil hdigits.ne_nil
        have hc : c ≠ '+' ∧ c ≠ '-' := by simpa using hdigits.not_sign
        rcases hsign with rfl | rfl
        · simpa [negate] using aligned_of_cons_ne (by decide) _ _
        · simpa [negate] using aligned_of_cons_ne hc.2.symm _ _
    have hunit : d.negate.unit = d.unit := by
      unfold negate
      split <;> rfl
    rw [chars, chars, hunit]
    simpa using hparts _ h.number d.unit.toList

/-- Flipping leaves everything in front of a number that it changes. -/
theorem Node.aligned_flipOffsets {next : Option Char} {ns : List Node} (h : Node.AllFit next ns)
    (pending : Bool) :
    Aligned (Node.charsAll ns) (Node.charsAll (flipOffsets pending ns)) := by
  induction ns generalizing pending with
  | nil => exact aligned_refl _
  | cons n ns ih =>
    rcases Node.number_cases n with ⟨d, rfl⟩ | hn
    · rw [flipOffsets, Node.charsAll_cons, Node.charsAll_cons]
      refine Aligned.append ?_ (ih h.2 false)
      cases pending with
      | false => exact aligned_refl _
      | true => exact Dimension.aligned_flip h.1.1
    · rw [Node.flipOffsets_cons hn, Node.charsAll_cons, Node.charsAll_cons]
      exact (aligned_refl _).append (ih h.2 _)

/-- A flipped shadow differs from the shadow at a sign, where the two part for good. -/
theorem aligned_flipShadow {options : Options} {property raw value : String}
    (hproperty : Property.textual.contains property = false)
    (h : normalValue options property raw = .ok value) :
    Aligned value.toList (flipShadow value).toList := by
  obtain ⟨ns, hparse, rfl, -⟩ := exists_nodes_of_normalValue hproperty h
  rw [flipShadow_of_parse hparse, Node.toList_render, Node.toList_render]
  exact Node.aligned_flipOffsets (parseValue_render_iff.1 hparse) true

/-! ### Names and values -/

namespace Direction

/-- The names of a property in the two directions are equal or part at a letter. -/
theorem aligned_property (name : String) :
    Aligned (ltr.property name).toList (rtl.property name).toList := by
  have htable : ∀ entry ∈ logicalProperties, Aligned entry.2.1.toList entry.2.2.toList := by decide
  unfold property
  cases h : Keyed.get? name logicalProperties with
  | none => exact aligned_refl _
  | some sides => exact htable _ (Keyed.mem_of_get?_eq_some h)

theorem aligned_floatSide (value : String) :
    Aligned (ltr.floatSide value).toList (rtl.floatSide value).toList := by
  unfold floatSide
  split
  · decide
  · split
    · decide
    · exact aligned_refl _

theorem aligned_turnWord (w : List Char) : Aligned (ltr.turnWord w) (rtl.turnWord w) := by
  cases h : isSideKeyword w with
  | false =>
    rw [turnWord_of_not_isSideKeyword h, turnWord_of_not_isSideKeyword h]
    exact aligned_refl w
  | true => rcases isSideKeyword_cases h with rfl | rfl <;> decide

/-- A position is turned word by word, so its two forms are aligned. -/
theorem aligned_position (value : String) :
    Aligned (ltr.position value).toList (rtl.position value).toList := by
  rw [toList_position, toList_position]
  induction value.toList using pieceInduction with
  | piece w hw =>
    rw [turn_piece hw, turn_piece hw]
    exact aligned_turnWord w
  | cons w rest hw ih =>
    rw [turn_cons hw, turn_cons hw]
    exact (aligned_turnWord w).append ((aligned_refl [' ']).append ih)

/-- A flipped cursor parts from the cursor at a letter. -/
theorem aligned_cursor (value : String) :
    Aligned value.toList ((Keyed.get? value cursorFlips).getD value).toList := by
  have htable : ∀ entry ∈ cursorFlips, Aligned entry.1.toList entry.2.toList := by decide
  cases h : Keyed.get? value cursorFlips with
  | none => exact aligned_refl _
  | some flipped => exact htable _ (Keyed.mem_of_get?_eq_some h)

/-- The two forms of a canonical value are aligned. -/
theorem aligned_value {options : Options} {name raw value : String}
    (h : normalValue options name raw = .ok value) :
    Aligned (ltr.value options name value).toList (rtl.value options name value).toList := by
  unfold Direction.value
  split
  · exact aligned_floatSide value
  · split
    · exact aligned_position value
    · rw [if_neg (by simp)]
      split
      · split
        case isTrue hshadow =>
          have htextual : Property.textual.contains name = false := by
            rcases (by simpa using hshadow : name = "box-shadow" ∨ name = "text-shadow") with
              rfl | rfl <;> decide
          exact aligned_flipShadow htextual h
        case isFalse =>
          split
          · exact aligned_cursor value
          · exact aligned_refl _
      · exact aligned_refl _

end Direction

/-! ### Declarations -/

namespace Declaration

variable {options : Options} {d : Declaration}

/-- The text of a property with one of its values, for one direction. -/
def item (options : Options) (direction : Direction) (d : Declaration) (value : String) : String :=
  direction.property d.property ++ ":" ++ direction.value options d.property value

/-- The body of a declaration in a direction is the row of its items in that direction. -/
theorem body_physical (direction : Direction) :
    (d.physical options direction).body =
      String.intercalate ";" (d.values.map (d.item options direction)) := by
  rw [body, physical, List.map_map]
  rfl

/-- The two forms of a property with one of its values are aligned, and their texts tell the name
and the value. -/
theorem aligned_item (hcanonical : d.IsCanonical options) {value : String} (h : value ∈ d.values) :
    Aligned (d.item options .ltr value).toList (d.item options .rtl value).toList ∧
      (d.item options .ltr value = d.item options .rtl value ↔
        Direction.ltr.property d.property = Direction.rtl.property d.property ∧
          Direction.ltr.value options d.property value =
            Direction.rtl.value options d.property value) := by
  obtain ⟨raw, hraw⟩ := hcanonical value h
  have hname := Direction.aligned_property d.property
  rw [← String.toList_inj]
  simp only [item, String.toList_append, List.append_assoc]
  refine ⟨hname.append ((aligned_refl _).append (Direction.aligned_value hraw)), ?_⟩
  rw [hname.append_eq_iff, List.append_cancel_left_eq, String.toList_inj, String.toList_inj]

/-- The physical forms of a declaration are aligned. -/
theorem aligned_body (hcanonical : d.IsCanonical options) :
    Aligned (d.physical options .ltr).body.toList (d.physical options .rtl).body.toList := by
  rw [body_physical, body_physical]
  exact (Text.aligned_intercalate ";" fun _ hvalue => (aligned_item hcanonical hvalue).1).1

/-- The texts of the physical forms are the same only if the forms are, unless the declaration
unsets its property and there is no text. -/
theorem body_physical_eq_iff (hcanonical : d.IsCanonical options) (hset : d.isUnset = false) :
    (d.physical options .ltr).body = (d.physical options .rtl).body ↔
      d.physical options .ltr = d.physical options .rtl := by
  obtain ⟨first, hfirst⟩ : ∃ value, value ∈ d.values :=
    List.exists_mem_of_ne_nil _ (by simpa [isUnset] using hset)
  rw [body_physical, body_physical,
    (Text.aligned_intercalate ";" fun _ hvalue => (aligned_item hcanonical hvalue).1).2, physical,
    physical, Declaration.mk.injEq, List.map_inj_left]
  constructor
  · intro h
    have hitem := fun value hvalue => (aligned_item hcanonical hvalue).2.1 (h value hvalue)
    exact ⟨(hitem first hfirst).1, fun value hvalue => (hitem value hvalue).2, rfl⟩
  · rintro ⟨hname, hvalues, -⟩ value hvalue
    exact (aligned_item hcanonical hvalue).2.2 ⟨hname, hvalues value hvalue⟩

end Declaration

end AtomicCss
