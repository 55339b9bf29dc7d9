import AtomicCss.Text.Basic

/-!
# Cutting texts apart

Texts that are put together without marks between them can be told apart again if one part ends
where a class of characters does.

* `Text.toList_intercalate_cons`, `Text.intercalate_flatten`: rows of texts with separators.
* `Text.takeWhile_append_of_stops`, `Text.dropWhile_append_of_stops`: a run of one class of
  characters is not longer for what follows, if that is not of the class.
* `Text.append_run_inj`: runs of one class of characters, each followed by something else.
* `Text.append_firstMark_inj`, `Text.append_lastMark_inj`: what stands before and after the first or
  the last occurrence of a mark; `Text.append_mark_eq_iff` compares cuts at any two occurrences.
* `Text.flatten_append_inj`: a row of parts that each begin with a mark and hold further ones within
  parentheses only.
* `Text.intercalate_inj`: parts between separators that they hold within parentheses only.
-/

namespace AtomicCss.Text

/-! ### Rows of texts -/

/-- A row is its first text, and then each of the others behind a separator. -/
theorem toList_intercalate_cons (separator text : String) (texts : List String) :
    (String.intercalate separator (text :: texts)).toList =
      text.toList ++ texts.flatMap fun t => separator.toList ++ t.toList := by
  induction texts generalizing text with
  | nil => simp
  | cons next texts ih =>
    rw [String.intercalate_cons_cons, String.toList_append, String.toList_append, ih next]
    simp

/-- Texts may be put in rows group by group. -/
theorem intercalate_flatten {separator : String} {groups : List (List String)}
    (h : ∀ texts ∈ groups, texts ≠ []) :
    String.intercalate separator groups.flatten =
      String.intercalate separator (groups.map (String.intercalate separator)) := by
  induction groups with
  | nil => rfl
  | cons texts groups ih =>
    obtain ⟨htexts, hrest⟩ := List.forall_mem_cons.1 h
    by_cases hlast : groups = []
    · simp [hlast]
    · obtain ⟨next, hnext⟩ := List.exists_mem_of_ne_nil groups hlast
      have hmore : groups.flatten ≠ [] := fun hnil =>
        hrest next hnext (List.flatten_eq_nil_iff.1 hnil next hnext)
      rw [List.flatten_cons, String.intercalate_append_of_ne_nil htexts hmore, ih hrest,
        List.map_cons, String.intercalate_cons_of_ne_nil (by simpa using hlast)]

/-! ### Runs -/

/-- The text does not begin with a character of the class. -/
def Stops (p : Char → Bool) (cs : List Char) : Prop :=
  ∀ c ∈ cs.head?, p c = false

theorem stops_nil (p : Char → Bool) : Stops p [] := by
  intro c hc
  cases hc

theorem stops_cons {p : Char → Bool} {c : Char} {cs : List Char} :
    Stops p (c :: cs) ↔ p c = false := by
  simp [Stops]

/-- What stops a class of characters stops every smaller one. -/
theorem Stops.mono {p q : Char → Bool} {cs : List Char} (h : Stops p cs)
    (hq : ∀ c, q c = true → p c = true) : Stops q cs := by
  intro c hc
  have hp : p c = false := h c hc
  cases hqc : q c with
  | false => rfl
  | true => rw [hq c hqc] at hp; cases hp

theorem Stops.append {p : Char → Bool} {cs t : List Char} (hcs : Stops p cs) (ht : Stops p t) :
    Stops p (cs ++ t) := by
  cases cs with
  | nil => exact ht
  | cons c cs => exact stops_cons.2 (stops_cons.1 hcs)

/-- Dropping the characters of a class stops at one that is none. -/
theorem stops_dropWhile (p : Char → Bool) (cs : List Char) : Stops p (cs.dropWhile p) := by
  intro c hc
  have hnot := List.head?_dropWhile_not p cs
  rw [Option.mem_def.1 hc] at hnot
  simpa using hnot

theorem Stops.takeWhile {p : Char → Bool} {cs : List Char} (h : Stops p cs) :
    cs.takeWhile p = [] := by
  cases cs with
  | nil => rfl
  | cons c cs => simp [stops_cons.1 h]

theorem Stops.dropWhile {p : Char → Bool} {cs : List Char} (h : Stops p cs) :
    cs.dropWhile p = cs := by
  cases cs with
  | nil => rfl
  | cons c cs => simp [stops_cons.1 h]

/-- Taking characters goes no further than the text in front, if the next one stops it. -/
theorem takeWhile_append_of_stops {p : Char → Bool} (cs : List Char) {t : List Char}
    (h : Stops p t) : (cs ++ t).takeWhile p = cs.takeWhile p := by
  rw [List.takeWhile_append]
  split
  · next hall =>
    rw [h.takeWhile, List.append_nil]
    exact ((List.takeWhile_prefix p).eq_of_length hall).symm
  · rfl

theorem dropWhile_append_of_stops {p : Char → Bool} (cs : List Char) {t : List Char}
    (h : Stops p t) : (cs ++ t).dropWhile p = cs.dropWhile p ++ t := by
  rw [List.dropWhile_append]
  split
  · next hall =>
    rw [h.dropWhile, List.isEmpty_iff.1 hall, List.nil_append]
  · rfl

/-- A run of characters of one class, up to a character that is not of the class, determines where
it ends. -/
theorem append_run_inj {p : Char → Bool} :
    ∀ {x y u v : List Char}, (∀ c ∈ x, p c = true) → (∀ c ∈ y, p c = true) → Stops p u →
      Stops p v → x ++ u = y ++ v → x = y ∧ u = v
  | [], [], _, _, _, _, _, _, h => ⟨rfl, h⟩
  | [], c :: _, _, _, _, hy, hu, _, h => by
    subst h
    have hc : p c = true := hy c (by simp)
    exact absurd hc (by simp [stops_cons.1 hu])
  | c :: _, [], _, _, hx, _, _, hv, h => by
    subst h
    have hc : p c = true := hx c (by simp)
    exact absurd hc (by simp [stops_cons.1 hv])
  | c :: x, d :: y, _, _, hx, hy, hu, hv, h => by
    obtain ⟨rfl, hrest⟩ := List.cons.inj h
    obtain ⟨rfl, rfl⟩ := append_run_inj (fun e he => hx e (by simp [he]))
      (fun e he => hy e (by simp [he])) hu hv hrest
    exact ⟨rfl, rfl⟩

/-- The first occurrence of a mark cuts a text in one way only. -/
theorem append_firstMark_inj {mark : Char} {x y u v : List Char} (hx : mark ∉ x) (hy : mark ∉ y)
    (h : x ++ mark :: u = y ++ mark :: v) : x = y ∧ u = v := by
  have hstop : ∀ z : List Char, Stops (· != mark) (mark :: z) := by
    intro z
    exact stops_cons.2 (by simp)
  have hrun : ∀ {z : List Char}, mark ∉ z → ∀ c ∈ z, (c != mark) = true := by
    intro z hz c hc
    have hne : c ≠ mark := by
      rintro rfl
      exact hz hc
    simpa using hne
  obtain ⟨hxy, huv⟩ := append_run_inj (hrun hx) (hrun hy) (hstop _) (hstop _) h
  exact ⟨hxy, (List.cons.inj huv).2⟩

/-- The last occurrence of a mark cuts a text in one way only. -/
theorem append_lastMark_inj {mark : Char} {x y u v : List Char} (hu : mark ∉ u) (hv : mark ∉ v)
    (h : x ++ mark :: u = y ++ mark :: v) : x = y ∧ u = v := by
  -- Seen from the end, it is the first occurrence.
  have hrev : u.reverse ++ mark :: x.reverse = v.reverse ++ mark :: y.reverse := by
    simpa using congrArg List.reverse h
  obtain ⟨huv, hxy⟩ := append_firstMark_inj (by simpa using hu) (by simpa using hv) hrev
  exact ⟨List.reverse_inj.1 hxy, List.reverse_inj.1 huv⟩

/-- Two cuts of a text at a mark are the same cut, or the later one leaves to the left what stands
between them. -/
theorem append_mark_eq_iff {mark : Char} {x y u v : List Char} :
    x ++ mark :: u = y ++ mark :: v ↔
      (x = y ∧ u = v) ∨ (∃ m, y = x ++ mark :: m ∧ u = m ++ mark :: v) ∨
        ∃ m, x = y ++ mark :: m ∧ v = m ++ mark :: u := by
  constructor
  · intro h
    -- What stands between the two cuts is empty, or it begins with the mark of the earlier one.
    rcases List.append_eq_append_iff.1 h with ⟨between, hy, hu⟩ | ⟨between, hx, hv⟩
    · cases between with
      | nil => exact .inl ⟨by simpa using hy.symm, (List.cons.inj hu).2⟩
      | cons c m =>
        obtain ⟨rfl, hrest⟩ := List.cons.inj hu
        exact .inr (.inl ⟨m, hy, hrest⟩)
    · cases between with
      | nil => exact .inl ⟨by simpa using hx, (List.cons.inj hv).2.symm⟩
      | cons c m =>
        obtain ⟨rfl, hrest⟩ := List.cons.inj hv
        exact .inr (.inr ⟨m, hx, hrest⟩)
  · rintro (⟨rfl, rfl⟩ | ⟨m, rfl, rfl⟩ | ⟨m, rfl, rfl⟩) <;> simp

/-! ### Parts up to a mark -/

/-- As many parentheses are closed as are opened. -/
def Closed (cs : List Char) : Prop :=
  cs.count '(' = cs.count ')'

instance (cs : List Char) : Decidable (Closed cs) :=
  inferInstanceAs (Decidable (_ = _))

/-- Behind closed parentheses, a text is closed if its rest is. -/
theorem closed_append {x y : List Char} (hx : Closed x) : Closed (x ++ y) ↔ Closed y := by
  unfold Closed at hx ⊢
  rw [List.count_append, List.count_append, hx]
  exact Nat.add_left_cancel_iff

/-- A part that ends where the next mark stands: its parentheses are closed, and after its first
characters, as many as may be marks of its own, there are marks within parentheses only. -/
structure StandsAlone (isMark : Char → Bool) (own : Nat) (cs : List Char) : Prop where
  own_le_length : own ≤ cs.length
  closed : Closed cs
  marks : ∀ i (h : i < cs.length), own ≤ i → Closed (cs.take i) → isMark cs[i] = false

instance (isMark : Char → Bool) (own : Nat) (cs : List Char) :
    Decidable (StandsAlone isMark own cs) :=
  decidable_of_iff
    (own ≤ cs.length ∧ Closed cs ∧
      ∀ i (h : i < cs.length), own ≤ i → Closed (cs.take i) → isMark cs[i] = false)
    ⟨fun h => ⟨h.1, h.2.1, h.2.2⟩, fun h => ⟨h.own_le_length, h.closed, h.marks⟩⟩

section Marks

variable {isMark : Char → Bool} {own : Nat}

/-- A part that stands alone does not go on with a mark after another such part. -/
theorem StandsAlone.eq_nil_of_append {x z : List Char} (hx : StandsAlone isMark own x)
    (hxz : StandsAlone isMark own (x ++ z)) (hz : ∀ c ∈ z.head?, isMark c = true) : z = [] := by
  cases z with
  | nil => rfl
  | cons c z =>
    have hclosed : Closed ((x ++ c :: z).take x.length) := by simpa using hx.closed
    have hc := hxz.marks x.length (by simp) hx.own_le_length hclosed
    have hmark : isMark c = true := hz c rfl
    simp [hmark] at hc

/-- A part that stands alone ends where the next mark begins. -/
theorem append_standsAlone_inj {x y u v : List Char} (hx : StandsAlone isMark own x)
    (hy : StandsAlone isMark own y) (hu : ∀ c ∈ u.head?, isMark c = true)
    (hv : ∀ c ∈ v.head?, isMark c = true) (h : x ++ u = y ++ v) : x = y ∧ u = v := by
  rcases List.append_eq_append_iff.1 h with ⟨z, rfl, rfl⟩ | ⟨z, rfl, rfl⟩
  · have hz : z = [] := hx.eq_nil_of_append hy fun c hc => hu c (by simp_all)
    simp [hz]
  · have hz : z = [] := hy.eq_nil_of_append hx fun c hc => hv c (by simp_all)
    simp [hz]

/-- A part without marks may be put after a part that stands alone. -/
theorem StandsAlone.append {x y : List Char} (hx : StandsAlone isMark own x)
    (hy : StandsAlone isMark 0 y) : StandsAlone isMark own (x ++ y) where
  own_le_length := by
    rw [List.length_append]
    exact Nat.le_add_right_of_le hx.own_le_length
  closed := (closed_append hx.closed).2 hy.closed
  marks := by
    intro i hi hown hclosed
    by_cases hlt : i < x.length
    · rw [List.take_append_of_le_length (Nat.le_of_lt hlt)] at hclosed
      rw [List.getElem_append_left hlt]
      exact hx.marks i hlt hown hclosed
    · have hle : x.length ≤ i := Nat.le_of_not_lt hlt
      rw [List.take_append, List.take_of_length_le hle, closed_append hx.closed] at hclosed
      rw [List.getElem_append_right hle]
      exact hy.marks (i - x.length) _ (Nat.zero_le _) hclosed

theorem isMark_of_mem_head {mark c : Char} (hmark : isMark mark = true) {zs : List (List Char)}
    {w : List Char} (hzs : ∀ z ∈ zs, StandsAlone isMark own z ∧ z.head? = some mark)
    (hw : ∀ c ∈ w.head?, isMark c = true ∧ c ≠ mark) (hc : c ∈ (zs.flatten ++ w).head?) :
    isMark c = true := by
  cases zs with
  | nil => exact (hw c (by simpa using hc)).1
  | cons z zs =>
    have hz := (hzs z (by simp)).2
    have hcmark : mark = c := by simpa [List.head?_append, hz] using hc
    rw [← hcmark, hmark]

/-- A row of parts that begin with one mark, followed by nothing or by another mark, determines the
parts. -/
theorem flatten_append_inj {mark : Char} (hmark : isMark mark = true) :
    ∀ {xs ys : List (List Char)} {u v : List Char},
      (∀ x ∈ xs, StandsAlone isMark own x ∧ x.head? = some mark) →
      (∀ y ∈ ys, StandsAlone isMark own y ∧ y.head? = some mark) →
      (∀ c ∈ u.head?, isMark c = true ∧ c ≠ mark) → (∀ c ∈ v.head?, isMark c = true ∧ c ≠ mark) →
      xs.flatten ++ u = ys.flatten ++ v → xs = ys ∧ u = v
  | [], [], u, v, _, _, _, _, h => ⟨rfl, by simpa using h⟩
  | [], y :: ys, u, v, _, hys, hu, _, h => by
    have hhead : u.head? = some mark := by
      have hy := (hys y (by simp)).2
      have hhead := congrArg List.head? h
      simpa [List.head?_append, hy] using hhead
    exact absurd rfl (hu mark hhead).2
  | x :: xs, [], u, v, hxs, _, _, hv, h => by
    have hhead : v.head? = some mark := by
      have hx := (hxs x (by simp)).2
      have hhead := congrArg List.head? h.symm
      simpa [List.head?_append, hx] using hhead
    exact absurd rfl (hv mark hhead).2
  | x :: xs, y :: ys, u, v, hxs, hys, hu, hv, h => by
    have hxs' : ∀ z ∈ xs, StandsAlone isMark own z ∧ z.head? = some mark :=
      fun z hz => hxs z (by simp [hz])
    have hys' : ∀ z ∈ ys, StandsAlone isMark own z ∧ z.head? = some mark :=
      fun z hz => hys z (by simp [hz])
    -- What follows the first part begins with a mark, be it the next part or what comes after all.
    rw [List.flatten_cons, List.flatten_cons, List.append_assoc, List.append_assoc] at h
    obtain ⟨rfl, htail⟩ := append_standsAlone_inj (hxs x (by simp)).1 (hys y (by simp)).1
      (fun c hc => isMark_of_mem_head hmark hxs' hu hc)
      (fun c hc => isMark_of_mem_head hmark hys' hv hc) h
    obtain ⟨rfl, rfl⟩ := flatten_append_inj hmark hxs' hys' hu hv htail
    exact ⟨rfl, rfl⟩

end Marks

/-! ### Parts between separators -/

/-- A part that holds a separator of two characters within parentheses only. -/
structure Unseparated (a b : Char) (cs : List Char) : Prop where
  closed : Closed cs
  separators : ∀ i < cs.length, Closed (cs.take i) → ¬ [a, b] <+: cs.drop i

instance (a b : Char) (cs : List Char) : Decidable (Unseparated a b cs) :=
  decidable_of_iff
    (Closed cs ∧ ∀ i < cs.length, Closed (cs.take i) → ¬ [a, b] <+: cs.drop i)
    ⟨fun h => ⟨h.1, h.2⟩, fun h => ⟨h.closed, h.separators⟩⟩

section Separators

variable {a b : Char}

/-- A separator does not follow a part within another part. -/
theorem Unseparated.ne_append {x y u : List Char} (hx : Unseparated a b x)
    (hy : Unseparated a b y) : x ++ a :: b :: u ≠ y := by
  rintro rfl
  have hclosed : Closed ((x ++ a :: b :: u).take x.length) := by simpa using hx.closed
  exact hy.separators x.length (by simp) hclosed (by simp)

/-- A separator between two parts is not found within the first one, nor half of it. -/
theorem Unseparated.eq_nil_of_append {x z u v : List Char} (hab : a ≠ b)
    (hx : Unseparated a b x) (hxz : Unseparated a b (x ++ z))
    (h : a :: b :: u = z ++ a :: b :: v) : z = [] := by
  cases z with
  | nil => rfl
  | cons c z =>
    obtain ⟨rfl, hrest⟩ := List.cons.inj h
    cases z with
    | nil => exact absurd (List.cons.inj hrest).1.symm hab
    | cons d z =>
      obtain ⟨rfl, -⟩ := List.cons.inj hrest
      exact absurd rfl (hx.ne_append hxz)

/-- The first separator outside parentheses ends the first part. -/
theorem append_separator_inj {x y u v : List Char} (hab : a ≠ b) (hx : Unseparated a b x)
    (hy : Unseparated a b y) (h : x ++ a :: b :: u = y ++ a :: b :: v) : x = y ∧ u = v := by
  rcases List.append_eq_append_iff.1 h with ⟨z, rfl, hrest⟩ | ⟨z, rfl, hrest⟩
  · have hz : z = [] := hx.eq_nil_of_append hab hy hrest
    subst hz
    simpa using hrest
  · have hz : z = [] := hy.eq_nil_of_append hab hx hrest
    subst hz
    simpa using hrest.symm

/-- Parts with separators between them are determined by the whole. -/
theorem intercalate_inj (hab : a ≠ b) :
    ∀ {xs ys : List (List Char)}, xs ≠ [] → ys ≠ [] → (∀ x ∈ xs, Unseparated a b x) →
      (∀ y ∈ ys, Unseparated a b y) → [a, b].intercalate xs = [a, b].intercalate ys → xs = ys
  | [], _, hne, _, _, _, _ => absurd rfl hne
  | _, [], _, hne, _, _, _ => absurd rfl hne
  | [x], [y], _, _, _, _, h => by simpa using h
  | [x], y :: y' :: ys, _, _, hx, hy, h => by
    have hlong : x = y ++ a :: b :: [a, b].intercalate (y' :: ys) := by simpa using h
    exact absurd hlong.symm ((hy y (by simp)).ne_append (hx x (by simp)))
  | x :: x' :: xs, [y], _, _, hx, hy, h => by
    have hlong : x ++ a :: b :: [a, b].intercalate (x' :: xs) = y := by simpa using h
    exact absurd hlong ((hx x (by simp)).ne_append (hy y (by simp)))
  | x :: x' :: xs, y :: y' :: ys, _, _, hx, hy, h => by
    have hlong : x ++ a :: b :: [a, b].intercalate (x' :: xs) =
        y ++ a :: b :: [a, b].intercalate (y' :: ys) := by simpa using h
    obtain ⟨rfl, hrest⟩ := append_separator_inj hab (hx x (by simp)) (hy y (by simp)) hlong
    rw [intercalate_inj hab (by simp) (by simp) (fun z hz => hx z (by simp [hz]))
      (fun z hz => hy z (by simp [hz])) hrest]

end Separators

end AtomicCss.Text
