import AtomicCss.Definition
import AtomicCss.Proofs.Decimal.Text
import AtomicCss.Proofs.Json.Writer
import AtomicCss.Proofs.Text

/-!
# What a canonical text determines

The canonical text of a definition is read back in one way only: its first character tells what kind
of value it is, strings and lists end where their closing marks stand, and a number ends where its
characters do. All that is lost is what a number was before it was written.

* `StyleValue.Alike`, `Definition.Alike`: the same but for numbers that are written alike.
* `StyleValue.alike_of_append`: a canonical text with anything after it determines its value, up to
  `Alike`, and where it ends.
* `Definition.canonicalText_eq_iff`: definitions share a canonical text exactly when they are alike.
-/

namespace AtomicCss

namespace StyleValue

open Json

/-! ### Values that are alike -/

mutual

/-- Values that are the same but for numbers, which need only be the same when written. -/
def Alike : StyleValue → StyleValue → Prop
  | .null, .null => True
  | .text s, .text t => s = t
  | .number x, .number y => formatNumber x = formatNumber y
  | .fallbacks as, .fallbacks bs => AlikeAll as bs
  | .conditional es, .conditional fs => AlikeEntries es fs
  | _, _ => False

/-- Lists of values that are alike one by one. -/
def AlikeAll : List StyleValue → List StyleValue → Prop
  | [], [] => True
  | a :: as, b :: bs => Alike a b ∧ AlikeAll as bs
  | _, _ => False

/-- Lists of entries with the same keys and values that are alike. -/
def AlikeEntries : List (String × StyleValue) → List (String × StyleValue) → Prop
  | [], [] => True
  | (j, a) :: es, (k, b) :: fs => j = k ∧ Alike a b ∧ AlikeEntries es fs
  | _, _ => False

end

/-- The five ways in which values are alike. -/
theorem alike_cases {a b : StyleValue} (h : Alike a b) :
    (a = .null ∧ b = .null) ∨ (∃ s, a = .text s ∧ b = .text s) ∨
      (∃ x y, a = .number x ∧ b = .number y ∧ formatNumber x = formatNumber y) ∨
      (∃ as bs, a = .fallbacks as ∧ b = .fallbacks bs ∧ AlikeAll as bs) ∨
      ∃ es fs, a = .conditional es ∧ b = .conditional fs ∧ AlikeEntries es fs := by
  revert h
  cases a <;> cases b <;> simp [Alike, eq_comm]

/-- Values that are alike are of one kind. -/
theorem kind_eq_of_alike {a b : StyleValue} (h : Alike a b) : a.kind = b.kind := by
  obtain ⟨rfl, rfl⟩ | ⟨s, rfl, rfl⟩ | ⟨x, y, rfl, rfl, -⟩ | ⟨as, bs, rfl, rfl, -⟩ |
    ⟨es, fs, rfl, rfl, -⟩ := alike_cases h <;> rfl

theorem alikeAll_nil {bs : List StyleValue} (h : AlikeAll [] bs) : bs = [] := by
  cases bs with
  | nil => rfl
  | cons b bs => simp [AlikeAll] at h

/-- A list alike to a nonempty one is nonempty, with its head and its tail alike. -/
theorem alikeAll_cons {a : StyleValue} {as cs : List StyleValue} (h : AlikeAll (a :: as) cs) :
    ∃ b bs, cs = b :: bs ∧ Alike a b ∧ AlikeAll as bs := by
  cases cs with
  | nil => simp [AlikeAll] at h
  | cons b bs => exact ⟨b, bs, rfl, by simpa only [AlikeAll] using h⟩

theorem alikeEntries_nil {fs : List (String × StyleValue)} (h : AlikeEntries [] fs) : fs = [] := by
  cases fs with
  | nil => rfl
  | cons f fs => simp [AlikeEntries] at h

/-- Entries alike to a nonempty list start with the same key. -/
theorem alikeEntries_cons {j : String} {a : StyleValue} {es gs : List (String × StyleValue)}
    (h : AlikeEntries ((j, a) :: es) gs) :
    ∃ b fs, gs = (j, b) :: fs ∧ Alike a b ∧ AlikeEntries es fs := by
  cases gs with
  | nil => simp [AlikeEntries] at h
  | cons f fs =>
    obtain ⟨k, b⟩ := f
    obtain ⟨rfl, hab, hrest⟩ : j = k ∧ Alike a b ∧ AlikeEntries es fs := by
      simpa only [AlikeEntries] using h
    exact ⟨b, fs, rfl, hab, hrest⟩

/-! ### The first character -/

/-- The kind of the values whose canonical texts begin with the character. -/
def leadKind (c : Char) : Kind :=
  if c = 'n' then .null
  else if c = '"' then .string
  else if c = '[' then .array
  else if c = '\x7b' then .object
  else .number

/-- A character of a finite number begins a number. -/
theorem leadKind_of_isPositional {c : Char} (h : isPositional c = true) :
    leadKind c = .number ∧ isEndMark c = false := by
  have hne : ∀ d : Char, isPositional d = false → c ≠ d := by
    rintro d hd rfl
    exact absurd h (by simp [hd])
  have h₁ := hne 'n' (by decide)
  have h₂ := hne '"' (by decide)
  have h₃ := hne '[' (by decide)
  have h₄ := hne '\x7b' (by decide)
  have h₅ := hne ',' (by decide)
  have h₆ := hne ']' (by decide)
  have h₇ := hne '\x7d' (by decide)
  exact ⟨by simp [leadKind, h₁, h₂, h₃, h₄], by simp [isEndMark, h₅, h₆, h₇]⟩

/-- The text of a number begins as no other value does. -/
theorem formatNumber_lead (x : Float) :
    ∃ c cs, (formatNumber x).toList = c :: cs ∧ leadKind c = .number ∧ isEndMark c = false := by
  rcases formatNumber_cases x with ⟨hne, hpos⟩ | h | h | h
  · obtain ⟨c, cs, hcs⟩ := List.exists_cons_of_ne_nil hne
    have hc : isPositional c = true := hpos c (by simp [hcs])
    exact ⟨c, cs, hcs, leadKind_of_isPositional hc⟩
  · rw [h]
    exact ⟨'i', ['n', 'f'], rfl, rfl, rfl⟩
  · rw [h]
    exact ⟨'-', ['i', 'n', 'f'], rfl, rfl, rfl⟩
  · rw [h]
    exact ⟨'N', ['a', 'N'], rfl, rfl, rfl⟩

/-- The first character of a canonical text tells the kind of the value. -/
theorem canonicalText_lead (v : StyleValue) :
    ∃ c cs, v.canonicalText.toList = c :: cs ∧ leadKind c = v.kind ∧ isEndMark c = false := by
  cases v with
  | null => exact ⟨'n', ['u', 'l', 'l'], rfl, rfl, rfl⟩
  | text raw => exact ⟨'"', _, toList_quote raw, rfl, rfl⟩
  | number x => exact formatNumber_lead x
  | fallbacks items => exact ⟨'[', _, toList_writeArray _, rfl, rfl⟩
  | conditional entries => exact ⟨'\x7b', _, toList_writeObject _, rfl, rfl⟩

/-- A canonical text tells the kind of the value, whatever follows it. -/
theorem kind_eq_of_append {a b : StyleValue} {u v : List Char}
    (h : a.canonicalText.toList ++ u = b.canonicalText.toList ++ v) : a.kind = b.kind := by
  obtain ⟨c, cs, hc, hkind, -⟩ := canonicalText_lead a
  obtain ⟨d, ds, hd, hkind', -⟩ := canonicalText_lead b
  rw [hc, hd, List.cons_append, List.cons_append] at h
  rw [← hkind, ← hkind', (List.cons.inj h).1]

/-- The canonical texts of values do not begin with a mark that ends a list. -/
theorem opens_canonicalTexts : ∀ {values : List StyleValue} {s : String},
    s ∈ canonicalTexts values → Opens s
  | value :: values, s, h => by
    rw [canonicalTexts, List.mem_cons] at h
    rcases h with rfl | h
    · obtain ⟨c, cs, hc, -, hend⟩ := canonicalText_lead value
      exact ⟨c, cs, hc, hend⟩
    · exact opens_canonicalTexts h

/-! ### Reading a canonical text back -/

/-- A character of a number, finite or not. -/
def isNumeric (c : Char) : Bool :=
  isPositional c || "infNa".toList.contains c

/-- A number is written with numeric characters only. -/
theorem isNumeric_of_mem_formatNumber {x : Float} {c : Char} (h : c ∈ (formatNumber x).toList) :
    isNumeric c = true := by
  rcases formatNumber_cases x with ⟨-, hpos⟩ | hword | hword | hword
  · simp [isNumeric, hpos c h]
  all_goals
    rw [hword] at h
    exact List.all_eq_true.1 (by decide) c h

/-- A list that goes on or ends stops a number. -/
theorem stops_rowTail (texts : List String) {mark : Char} (hmark : isNumeric mark = false)
    (u : List Char) : Text.Stops isNumeric (rowTail texts ++ mark :: u) := by
  cases texts with
  | nil => exact Text.stops_cons.2 hmark
  | cons text texts => exact Text.stops_cons.2 (by decide)

mutual

/-- A canonical text determines its value, up to `Alike`, and where it ends. -/
theorem alike_of_append :
    ∀ (a b : StyleValue) (u v : List Char), Text.Stops isNumeric u → Text.Stops isNumeric v →
      a.canonicalText.toList ++ u = b.canonicalText.toList ++ v → Alike a b ∧ u = v
  | .null, b => by
    intro u v _ _ h
    cases b with
    | null => exact ⟨by simp only [Alike], List.append_cancel_left h⟩
    | _ => cases kind_eq_of_append h
  | .text s, b => by
    intro u v _ _ h
    cases b with
    | text t =>
      simp only [canonicalText] at h
      simpa only [Alike] using quote_append_inj h
    | _ => cases kind_eq_of_append h
  | .number x, b => by
    intro u v hu hv h
    cases b with
    | number y =>
      -- A number has no closing mark, so this is where the two rests must stop it.
      simp only [canonicalText] at h
      obtain ⟨hxy, huv⟩ := Text.append_run_inj (fun c hc => isNumeric_of_mem_formatNumber hc)
        (fun c hc => isNumeric_of_mem_formatNumber hc) hu hv h
      exact ⟨by simpa only [Alike] using String.toList_inj.1 hxy, huv⟩
    | _ => cases kind_eq_of_append h
  | .fallbacks as, b => by
    intro u v _ _ h
    cases b with
    | fallbacks bs =>
      simp only [canonicalText, toList_writeArray, List.cons_append, List.append_assoc,
        List.nil_append, List.cons.injEq, true_and] at h
      have htail := rowTail_eq_of_row_eq (by decide) (fun s hs => opens_canonicalTexts hs)
        (fun t ht => opens_canonicalTexts ht) h
      simpa only [Alike] using alikeAll_of_append as bs _ _ htail
    | _ => cases kind_eq_of_append h
  | .conditional es, b => by
    intro u v _ _ h
    cases b with
    | conditional fs =>
      simp only [canonicalText, toList_writeObject, List.cons_append, List.append_assoc,
        List.nil_append, List.cons.injEq, true_and] at h
      have htail := rowTail_eq_of_row_eq (by decide) (fun s hs => opens_memberTexts hs)
        (fun t ht => opens_memberTexts ht) h
      simpa only [Alike] using alikeEntries_of_append es fs _ _ htail
    | _ => cases kind_eq_of_append h

/-- The items of an array after a comma each, up to the mark that ends the array. -/
theorem alikeAll_of_append :
    ∀ (as bs : List StyleValue) (u v : List Char),
      rowTail (canonicalTexts as) ++ ']' :: u = rowTail (canonicalTexts bs) ++ ']' :: v →
        AlikeAll as bs ∧ u = v
  | [], [] => by
    intro u v h
    simpa only [AlikeAll, canonicalTexts, rowTail_nil, List.nil_append, List.cons.injEq] using h
  | [], b :: bs => by
    intro u v h
    simp [canonicalTexts] at h
  | a :: as, [] => by
    intro u v h
    simp [canonicalTexts] at h
  | a :: as, b :: bs => by
    intro u v h
    simp only [canonicalTexts, rowTail_cons, List.cons_append, List.append_assoc,
      List.cons.injEq, true_and] at h
    obtain ⟨hab, hrest⟩ := alike_of_append a b _ _ (stops_rowTail _ (by decide) u)
      (stops_rowTail _ (by decide) v) h
    obtain ⟨hall, huv⟩ := alikeAll_of_append as bs _ _ hrest
    exact ⟨by simpa only [AlikeAll] using ⟨hab, hall⟩, huv⟩

/-- The members of an object after a comma each, up to the mark that ends the object. -/
theorem alikeEntries_of_append :
    ∀ (es fs : List (String × StyleValue)) (u v : List Char),
      rowTail (memberTexts (canonicalEntries es)) ++ '\x7d' :: u =
          rowTail (memberTexts (canonicalEntries fs)) ++ '\x7d' :: v →
        AlikeEntries es fs ∧ u = v
  | [], [] => by
    intro u v h
    simpa only [AlikeEntries, canonicalEntries, memberTexts, List.map_nil, rowTail_nil,
      List.nil_append, List.cons.injEq] using h
  | [], (k, b) :: fs => by
    intro u v h
    simp [canonicalEntries, memberTexts] at h
  | (j, a) :: es, [] => by
    intro u v h
    simp [canonicalEntries, memberTexts] at h
  | (j, a) :: es, (k, b) :: fs => by
    intro u v h
    simp only [canonicalEntries, memberTexts, List.map_cons, rowTail_cons, toList_writeMember,
      List.cons_append, List.append_assoc, List.cons.injEq, true_and] at h
    obtain ⟨hkey, hvalue⟩ := quote_append_inj h
    obtain ⟨hab, hrest⟩ := alike_of_append a b _ _ (stops_rowTail _ (by decide) u)
      (stops_rowTail _ (by decide) v) (List.cons.inj hvalue).2
    obtain ⟨hall, huv⟩ := alikeEntries_of_append es fs _ _ hrest
    exact ⟨by simpa only [AlikeEntries] using ⟨hkey, hab, hall⟩, huv⟩

end

/-! ### Writing values that are alike -/

mutual

/-- Values that are alike are written alike. -/
theorem canonicalText_eq_of_alike :
    ∀ {a b : StyleValue}, Alike a b → a.canonicalText = b.canonicalText
  | .null, b, h => by
    cases b with
    | null => rfl
    | _ => cases kind_eq_of_alike h
  | .text s, b, h => by
    cases b with
    | text t =>
      simp only [Alike] at h
      rw [h]
    | _ => cases kind_eq_of_alike h
  | .number x, b, h => by
    cases b with
    | number y => simpa only [Alike, canonicalText] using h
    | _ => cases kind_eq_of_alike h
  | .fallbacks as, b, h => by
    cases b with
    | fallbacks bs =>
      simp only [Alike] at h
      simp only [canonicalText, canonicalTexts_eq_of_alike h]
    | _ => cases kind_eq_of_alike h
  | .conditional es, b, h => by
    cases b with
    | conditional fs =>
      simp only [Alike] at h
      simp only [canonicalText, canonicalEntries_eq_of_alike h]
    | _ => cases kind_eq_of_alike h

/-- Values that are alike have the same canonical texts. -/
theorem canonicalTexts_eq_of_alike :
    ∀ {as bs : List StyleValue}, AlikeAll as bs → canonicalTexts as = canonicalTexts bs
  | [], bs, h => by rw [alikeAll_nil h]
  | a :: as, cs, h => by
    obtain ⟨b, bs, rfl, hab, hrest⟩ := alikeAll_cons h
    simp only [canonicalTexts, canonicalText_eq_of_alike hab, canonicalTexts_eq_of_alike hrest]

/-- Entries that are alike have the same canonical text. -/
theorem canonicalEntries_eq_of_alike :
    ∀ {es fs : List (String × StyleValue)}, AlikeEntries es fs →
      canonicalEntries es = canonicalEntries fs
  | [], fs, h => by rw [alikeEntries_nil h]
  | (j, a) :: es, gs, h => by
    obtain ⟨b, fs, rfl, hab, hrest⟩ := alikeEntries_cons h
    simp only [canonicalEntries, canonicalText_eq_of_alike hab,
      canonicalEntries_eq_of_alike hrest]

end

end StyleValue

namespace Definition

/-- Definitions with the same properties in the same order, whose values are the same but for
numbers that are written alike. -/
def Alike (d e : Definition) : Prop :=
  StyleValue.AlikeEntries d.entries e.entries

/-- Definitions share a canonical text exactly when they are alike. -/
theorem canonicalText_eq_iff (d e : Definition) :
    d.canonicalText = e.canonicalText ↔ d.Alike e := by
  constructor
  · intro h
    -- The text of a definition is that of its entries as one conditional value.
    have hvalue : (StyleValue.conditional d.entries).canonicalText =
        (StyleValue.conditional e.entries).canonicalText := by
      simpa only [StyleValue.canonicalText, canonicalText] using h
    have halike := (StyleValue.alike_of_append (.conditional d.entries) (.conditional e.entries)
      [] [] (Text.stops_nil _) (Text.stops_nil _) (by rw [hvalue])).1
    simpa only [StyleValue.Alike, Alike] using halike
  · intro h
    simp only [canonicalText, StyleValue.canonicalEntries_eq_of_alike h]

end Definition

end AtomicCss
