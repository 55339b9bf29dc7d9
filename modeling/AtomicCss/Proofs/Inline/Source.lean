import AtomicCss.Inline.Item
import AtomicCss.Proofs.Inline.Token

/-!
# Written definitions

A definition without expressions other than string literals is written as tokens: a colon behind
each key, commas between items, and after the last item of each level a comma or none. It is read as
what was written. The list in square brackets is the only thing that must not be empty: with an
empty one anywhere, nothing is read.

* `Source`: values as they are written, with their trailing commas, and `Source.value`: the values
  that they stand for.
* `readList_row`, `readEntries_row`, `readItems_row`: a row of items is read up to its end.
* `Item.ofText?_written`: which definitions are read, and as what.
-/

namespace AtomicCss.Inline

/-! ### Values as they are written -/

/-- A value as it is written. -/
inductive Source where
  /-- The word `null`. -/
  | null
  /-- A string literal. -/
  | text (literal : Literal)
  /-- Items in square brackets, the last of them with or without a comma. -/
  | list (items : List Source) (trailing : Bool)
  /-- Entries in braces, the last of them with or without a comma. -/
  | map (entries : List (Literal × Source)) (trailing : Bool)

/-- Items with commas between them, and behind the last one if `trailing`. -/
def row (trailing : Bool) : List (List Token) → List Token
  | [] => []
  | ts :: rest =>
    ts ++ if rest.isEmpty && !trailing then [] else .mark ',' false :: row trailing rest

/-- After an item the row is at its end, or goes on behind a comma. -/
theorem row_cons (trailing : Bool) (ts : List Token) (rest : List (List Token)) :
    (rest = [] ∧ row trailing (ts :: rest) = ts) ∨
      row trailing (ts :: rest) = ts ++ .mark ',' false :: row trailing rest := by
  rw [row]
  split
  · next hend =>
    rw [Bool.and_eq_true, List.isEmpty_iff] at hend
    exact .inl ⟨hend.1, List.append_nil ts⟩
  · exact .inr rfl

namespace Source

mutual

/-- The tokens of a value. -/
def tokens : Source → List Token
  | .null => [.ident "null"]
  | .text l => [l.token]
  | .list items trailing =>
    .opening .square :: (row trailing (itemTokens items) ++ [.closing .square])
  | .map entries trailing =>
    .opening .brace :: (row trailing (entryTokens entries) ++ [.closing .brace])

/-- The tokens of the items of a list. -/
def itemTokens : List Source → List (List Token)
  | [] => []
  | v :: items => v.tokens :: itemTokens items

/-- The tokens of entries. -/
def entryTokens : List (Literal × Source) → List (List Token)
  | [] => []
  | (key, v) :: entries => (key.token :: .mark ':' false :: v.tokens) :: entryTokens entries

end

mutual

/-- The value that is written. -/
def value : Source → Value
  | .null => .null
  | .text l => .expr (.atom l.written)
  | .list items _ => .list (values items)
  | .map entries _ => .map (pairs entries)

/-- The values of the items of a list. -/
def values : List Source → List Value
  | [] => []
  | v :: items => v.value :: values items

/-- The keys and values of entries. -/
def pairs : List (Literal × Source) → List (String × Value)
  | [] => []
  | (key, v) :: entries => (key.content, v.value) :: pairs entries

end

mutual

/-- Whether there are square brackets with nothing in them, at any depth. -/
def hasEmptyList : Source → Bool
  | .null => false
  | .text _ => false
  | .list items _ => items.isEmpty || anyEmptyList items
  | .map entries _ => entriesEmptyList entries

/-- Whether there are such brackets in an item. -/
def anyEmptyList : List Source → Bool
  | [] => false
  | v :: items => v.hasEmptyList || anyEmptyList items

/-- Whether there are such brackets in an entry. -/
def entriesEmptyList : List (Literal × Source) → Bool
  | [] => false
  | (_, v) :: entries => v.hasEmptyList || entriesEmptyList entries

end

@[simp] theorem itemTokens_eq_map (items : List Source) :
    itemTokens items = items.map tokens := by
  induction items with
  | nil => rfl
  | cons v items ih => rw [itemTokens, ih, List.map_cons]

/-- The tokens of an entry. -/
def entry (e : Literal × Source) : List Token :=
  e.1.token :: .mark ':' false :: e.2.tokens

@[simp] theorem entryTokens_eq_map (entries : List (Literal × Source)) :
    entryTokens entries = entries.map entry := by
  induction entries with
  | nil => rfl
  | cons e entries ih => rw [entryTokens, ih, List.map_cons, entry]

@[simp] theorem values_eq_map (items : List Source) : values items = items.map value := by
  induction items with
  | nil => rfl
  | cons v items ih => rw [values, ih, List.map_cons]

@[simp] theorem pairs_eq_map (entries : List (Literal × Source)) :
    pairs entries = entries.map fun e => (e.1.content, e.2.value) := by
  induction entries with
  | nil => rfl
  | cons e entries ih => rw [pairs, ih, List.map_cons]

@[simp] theorem anyEmptyList_eq_any (items : List Source) :
    anyEmptyList items = items.any hasEmptyList := by
  induction items with
  | nil => rfl
  | cons v items ih => rw [anyEmptyList, ih, List.any_cons]

@[simp] theorem entriesEmptyList_eq_any (entries : List (Literal × Source)) :
    entriesEmptyList entries = entries.any fun e => e.2.hasEmptyList := by
  induction entries with
  | nil => rfl
  | cons e entries ih => rw [entriesEmptyList, ih, List.any_cons]

/-- Induction over values, with all items and all entries of a value. -/
theorem induction {motive : Source → Prop} (null : motive .null) (text : ∀ l, motive (.text l))
    (list : ∀ items trailing, (∀ v ∈ items, motive v) → motive (.list items trailing))
    (map : ∀ entries trailing, (∀ e ∈ entries, motive e.2) → motive (.map entries trailing))
    (v : Source) : motive v := by
  -- Lists of items, lists of entries and entries have motives of their own.
  refine @Source.rec motive (fun items => ∀ v ∈ items, motive v)
    (fun entries => ∀ e ∈ entries, motive e.2) (fun e => motive e.2) null text list map
    ?_ ?_ ?_ ?_ ?_ v
  · simp
  · intro v items hv hitems
    exact List.forall_mem_cons.2 ⟨hv, hitems⟩
  · simp
  · intro e entries he hentries
    exact List.forall_mem_cons.2 ⟨he, hentries⟩
  · intro _ v hv
    exact hv

end Source

/-! ### Telling the tokens apart -/

/-- A token with which an item begins: neither a punctuation mark nor a closing bracket. -/
def Token.beginsItem : Token → Bool
  | .mark _ _ => false
  | .closing _ => false
  | _ => true

/-- Tokens that begin like an item and can be told from what follows, if that is no word. -/
structure IsItem (ts : List Token) : Prop where
  begins : ∃ t us, ts = t :: us ∧ t.beginsItem = true
  apart : ∀ rest, Apart rest → (∀ u ∈ rest.head?, u.isWord = false) → Apart (ts ++ rest)

theorem IsItem.head_isMark {ts : List Token} (h : IsItem ts) (rest : List Token) :
    ∀ u ∈ (ts ++ rest).head?, u.isMark = false := by
  obtain ⟨t, us, rfl, ht⟩ := h.begins
  rintro u hu
  obtain rfl := Option.mem_some.1 hu
  cases t with
  | mark => cases ht
  | ident | literal | opening | closing => rfl

theorem head_row_isMark (trailing : Bool) {items : List (List Token)}
    (h : ∀ ts ∈ items, IsItem ts) {rest : List Token}
    (hrest : ∀ u ∈ rest.head?, u.isMark = false) :
    ∀ u ∈ (row trailing items ++ rest).head?, u.isMark = false := by
  cases items with
  | nil => exact hrest
  | cons ts items =>
    rw [row, List.append_assoc]
    exact (h ts (by simp)).head_isMark _

/-- Items in a row can be told apart, up to the bracket that closes the row or to the end. -/
theorem apart_row (trailing : Bool) {items : List (List Token)} (h : ∀ ts ∈ items, IsItem ts)
    {rest : List Token} (hrest : Apart rest) (hword : ∀ u ∈ rest.head?, u.isWord = false)
    (hmark : ∀ u ∈ rest.head?, u.isMark = false) : Apart (row trailing items ++ rest) := by
  induction items with
  | nil => exact hrest
  | cons ts items ih =>
    have hitem := h ts (by simp)
    have hitems : ∀ us ∈ items, IsItem us := fun us hus => h us (by simp [hus])
    rcases row_cons trailing ts items with ⟨-, hrow⟩ | hrow
    · rw [hrow]
      exact hitem.apart rest hrest hword
    · rw [hrow, List.append_assoc, List.cons_append]
      have hnext := head_row_isMark trailing hitems hmark
      exact hitem.apart _ (.mark (.inr rfl) hnext (ih hitems)) (by simp [Token.isWord])

theorem isItem_word {t : Token} (ht : t.beginsItem = true)
    (h : ∀ {rest : List Token}, (∀ u ∈ rest.head?, u.isWord = false) → Apart rest →
      Apart (t :: rest)) : IsItem [t] where
  begins := ⟨t, [], rfl, ht⟩
  apart _ hrest hword := h hword hrest

/-- A row in brackets is an item. -/
theorem isItem_enclosed (bracket : Bracket) (trailing : Bool) {items : List (List Token)}
    (h : ∀ ts ∈ items, IsItem ts) :
    IsItem (.opening bracket :: (row trailing items ++ [.closing bracket])) where
  begins := ⟨_, _, rfl, rfl⟩
  apart rest hrest _ := by
    rw [List.cons_append, List.append_assoc]
    refine .opening bracket (apart_row trailing h (.closing bracket hrest) ?_ ?_)
    · simp [Token.isWord]
    · simp [Token.isMark]

/-- A key and its value are an item. -/
theorem IsItem.entry {ts : List Token} (h : IsItem ts) (key : Literal) :
    IsItem (key.token :: .mark ':' false :: ts) where
  begins := ⟨_, _, rfl, rfl⟩
  apart rest hrest hword := by
    have hvalue := h.apart rest hrest hword
    have hnext := h.head_isMark rest
    exact .literal key (by simp [Token.isWord]) (.mark (.inl rfl) hnext hvalue)

/-- The tokens of every value make an item. -/
theorem Source.isItem_tokens (v : Source) : IsItem v.tokens := by
  induction v using Source.induction with
  | null => exact isItem_word rfl .null
  | text l => exact isItem_word rfl (.literal l)
  | list items trailing ih =>
    rw [tokens, itemTokens_eq_map]
    exact isItem_enclosed .square trailing (List.forall_mem_map.2 ih)
  | map entries trailing ih =>
    rw [tokens, entryTokens_eq_map]
    exact isItem_enclosed .brace trailing (List.forall_mem_map.2 fun e he => (ih e he).entry e.1)

/-! ### Reading values -/

theorem readFields_of_endsValue {rest : List Token} (h : endsValue rest = true) (e : Expr) :
    readFields e rest = (e, rest) := by
  unfold endsValue at h
  split at h
  · rfl
  · rfl
  · rfl
  · cases h

theorem readOperations_of_endsValue {rest : List Token} (h : endsValue rest = true) (steps : Nat)
    (e : Expr) : readOperations (steps + 1) e rest = some (e, rest) := by
  unfold endsValue at h
  split at h
  · rfl
  · rfl
  · rfl
  · cases h

/-- A literal that nothing continues is an expression. -/
theorem readValue_literal (l : Literal) {rest : List Token} (h : endsValue rest = true)
    (steps : Nat) :
    readValue (steps + 3) (l.token :: rest) = some (.expr (.atom l.written), rest) := by
  have hoperand : readOperand (steps + 1) (l.token :: rest) = some (.atom l.written, rest) :=
    congrArg some (readFields_of_endsValue h (.atom l.written))
  have hexpr : readExpr (steps + 2) (l.token :: rest) = some (.atom l.written, rest) := by
    rw [readExpr, hoperand]
    exact readOperations_of_endsValue h steps (.atom l.written)
  show (readExpr (steps + 2) (l.token :: rest)).map _ = _
  rw [hexpr]
  rfl

/-! ### Reading rows -/

/-- A loop that reads items between commas up to a certain end reads a row of items. Each item is
read in two steps for each of its tokens, or fails, and then the loop fails. -/
theorem loop_row {α β : Type} (loop : Nat → List Token → Option (List α × List Token))
    (after : Nat → α → List Token → Option (List α × List Token))
    {tokens : β → List Token} {fails : β → Bool} {value : β → α} {stop rest : List Token}
    {items : List β} (hends : endsValue stop = true)
    (hstop : ∀ steps, loop (steps + 1) stop = some ([], rest))
    (hlast : ∀ steps a, after steps a stop = some ([a], rest))
    (hnext : ∀ steps a us, after steps a (.mark ',' false :: us) =
      (loop steps us).map fun r => (a :: r.1, r.2))
    (hitem : ∀ b ∈ items, ∀ steps us, 2 * (tokens b).length + 1 ≤ steps → endsValue us = true →
      loop (steps + 1) (tokens b ++ us) = if fails b then none else after steps (value b) us)
    (trailing : Bool) (steps : Nat)
    (hsteps : 2 * (row trailing (items.map tokens)).length + 2 ≤ steps) :
    loop steps (row trailing (items.map tokens) ++ stop) =
      if items.any fails then none else some (items.map value, rest) := by
  induction items generalizing steps with
  | nil =>
    obtain ⟨steps, rfl⟩ : ∃ n, steps = n + 1 := ⟨steps - 1, by omega⟩
    exact hstop steps
  | cons b items ih =>
    obtain ⟨steps, rfl⟩ : ∃ n, steps = n + 1 := ⟨steps - 1, by omega⟩
    have hb := hitem b (by simp) steps
    rw [List.map_cons] at hsteps ⊢
    rw [List.any_cons, List.map_cons]
    rcases row_cons trailing (tokens b) (items.map tokens) with ⟨hend, hrow⟩ | hrow
    · obtain rfl := List.map_eq_nil_iff.1 hend
      rw [hrow] at hsteps ⊢
      rw [hb stop (by omega) hends, hlast, List.any_nil, Bool.or_false]
      rfl
    · -- A comma is followed by the rest of the row, which has no items if the comma is the last.
      rw [hrow, List.length_append, List.length_cons] at hsteps
      have hitems := ih (fun c hc => hitem c (by simp [hc])) steps (by omega)
      rw [hrow, List.append_assoc, List.cons_append, hb _ (by omega) rfl, hnext, hitems]
      cases fails b <;> cases items.any fails <;> rfl

/-- The value is read from its tokens, in two steps for each of them, unless it has an empty
list. -/
def Source.Reads (v : Source) : Prop :=
  ∀ steps rest, 2 * v.tokens.length + 1 ≤ steps → endsValue rest = true →
    readValue steps (v.tokens ++ rest) =
      if v.hasEmptyList then none else some (v.value, rest)

/-- Goes on behind an item of a list. -/
def listAfter (steps : Nat) (value : Value) : List Token → Option (List Value × List Token)
  | .closing .square :: rest => return ([value], rest)
  | .mark ',' _ :: rest => do
    let (items, rest) ← readList steps rest
    return (value :: items, rest)
  | _ => none

/-- The items of a list are read one by one. -/
theorem readList_item {t : Token} (h : t.beginsItem = true) (steps : Nat) (ts : List Token) :
    readList (steps + 1) (t :: ts) =
      (readValue steps (t :: ts)).bind fun r => listAfter steps r.1 r.2 := by
  rw [readList]
  · rfl
  · rintro rest heq
    rw [(List.cons.inj heq).1] at h
    cases h

/-- The items of a list are read one after the other, up to the closing bracket. -/
theorem readList_row (trailing : Bool) {items : List Source} (h : ∀ v ∈ items, v.Reads)
    (steps : Nat) (rest : List Token)
    (hsteps : 2 * (row trailing (items.map Source.tokens)).length + 2 ≤ steps) :
    readList steps (row trailing (items.map Source.tokens) ++ .closing .square :: rest) =
      if items.any Source.hasEmptyList then none else some (items.map Source.value, rest) := by
  refine loop_row readList listAfter rfl (fun _ => rfl) (fun _ _ => rfl) (fun steps _ us => ?_)
    (fun v hv steps us hsteps hus => ?_) trailing steps hsteps
  · rw [listAfter]
    cases readList steps us <;> rfl
  · obtain ⟨t, ts, hbegins, ht⟩ := v.isItem_tokens.begins
    have hread := h v hv steps us hsteps hus
    rw [hbegins, List.cons_append] at hread ⊢
    rw [readList_item ht, hread]
    cases v.hasEmptyList <;> rfl

/-- Goes on behind an entry of a map. -/
def entriesAfter (steps : Nat) (entry : String × Value) :
    List Token → Option (List (String × Value) × List Token)
  | .closing .brace :: rest => return ([entry], rest)
  | .mark ',' _ :: rest => do
    let (entries, rest) ← readEntries steps rest
    return (entry :: entries, rest)
  | _ => none

/-- The entries of a map are read one by one. -/
theorem readEntries_entry (key : Literal) (steps : Nat) (ts : List Token) :
    readEntries (steps + 1) (key.token :: .mark ':' false :: ts) =
      (readValue steps ts).bind fun r => entriesAfter steps (key.content, r.1) r.2 := rfl

/-- The entries of a map are read one after the other, up to the closing brace. -/
theorem readEntries_row (trailing : Bool) {entries : List (Literal × Source)}
    (h : ∀ e ∈ entries, e.2.Reads) (steps : Nat) (rest : List Token)
    (hsteps : 2 * (row trailing (entries.map Source.entry)).length + 2 ≤ steps) :
    readEntries steps (row trailing (entries.map Source.entry) ++ .closing .brace :: rest) =
      if entries.any fun e => e.2.hasEmptyList then none
      else some (entries.map fun e => (e.1.content, e.2.value), rest) := by
  refine loop_row readEntries entriesAfter rfl (fun _ => rfl) (fun _ _ => rfl)
    (fun steps _ us => ?_) (fun e he steps us hsteps hus => ?_) trailing steps hsteps
  · rw [entriesAfter]
    cases readEntries steps us <;> rfl
  · rw [Source.entry, List.length_cons, List.length_cons] at hsteps
    have hread := h e he steps us (by omega) hus
    show readEntries (steps + 1) (e.1.token :: .mark ':' false :: (e.2.tokens ++ us)) = _
    rw [readEntries_entry, hread]
    cases e.2.hasEmptyList <;> rfl

/-- Square brackets are read as a list, unless it is empty. -/
theorem readValue_list (steps : Nat) (ts : List Token) :
    readValue (steps + 1) (.opening .square :: ts) =
      (readList steps ts).bind fun r => if r.1.isEmpty then none else some (.list r.1, r.2) := rfl

theorem readValue_map (steps : Nat) (ts : List Token) :
    readValue (steps + 1) (.opening .brace :: ts) =
      (readEntries steps ts).map fun r => (.map r.1, r.2) := rfl

/-- Every value is read from its tokens. -/
theorem Source.reads (v : Source) : v.Reads := by
  induction v using Source.induction with
  | null =>
    intro steps rest hsteps hrest
    obtain ⟨steps, rfl⟩ : ∃ n, steps = n + 1 := ⟨steps - 1, by omega⟩
    exact if_pos hrest
  | text l =>
    intro steps rest hsteps hrest
    have hsteps : 3 ≤ steps := hsteps
    obtain ⟨steps, rfl⟩ : ∃ n, steps = n + 3 := ⟨steps - 3, by omega⟩
    exact readValue_literal l hrest steps
  | list items trailing ih =>
    intro steps rest hsteps _
    rw [tokens, itemTokens_eq_map] at hsteps ⊢
    simp only [List.length_cons, List.length_append] at hsteps
    obtain ⟨steps, rfl⟩ : ∃ n, steps = n + 1 := ⟨steps - 1, by omega⟩
    have hitems := readList_row trailing ih steps rest (by omega)
    rw [hasEmptyList, anyEmptyList_eq_any, value, values_eq_map, List.cons_append,
      List.append_assoc, List.singleton_append, readValue_list, hitems]
    -- The loop takes square brackets with nothing in them; they are refused behind it.
    cases items with
    | nil => rfl
    | cons v items => cases hany : (v :: items).any hasEmptyList <;> simp
  | map entries trailing ih =>
    intro steps rest hsteps _
    rw [tokens, entryTokens_eq_map] at hsteps ⊢
    simp only [List.length_cons, List.length_append] at hsteps
    obtain ⟨steps, rfl⟩ : ∃ n, steps = n + 1 := ⟨steps - 1, by omega⟩
    have hentries := readEntries_row trailing ih steps rest (by omega)
    rw [hasEmptyList, entriesEmptyList_eq_any, value, pairs_eq_map, List.cons_append,
      List.append_assoc, List.singleton_append, readValue_map, hentries]
    split <;> rfl

/-! ### Definitions -/

/-- Goes on behind an item of a definition. -/
def itemsAfter (steps : Nat) (item : Item) : List Token → Option (List Item)
  | [] => return [item]
  | .mark ',' _ :: rest => do
    let items ← readItems steps rest
    return item :: items
  | _ => none

/-- The entries of a definition are read one by one. -/
theorem readItems_entry (key : Literal) (steps : Nat) (ts : List Token) :
    readItems (steps + 1) (key.token :: .mark ':' false :: ts) =
      (readValue steps ts).bind fun r => itemsAfter steps (.entry key.content r.1) r.2 := by
  show ((readValue steps ts).bind _).bind _ = _
  cases readValue steps ts <;> rfl

/-- The entries of a definition are read one after the other, up to the end. -/
theorem readItems_row (trailing : Bool) (entries : List (Literal × Source)) (steps : Nat)
    (hsteps : 2 * (row trailing (entries.map Source.entry)).length + 2 ≤ steps) :
    readItems steps (row trailing (entries.map Source.entry)) =
      if entries.any fun e => e.2.hasEmptyList then none
      else some (entries.map fun e => .entry e.1.content e.2.value) := by
  -- The loop over the items of a definition leaves no tokens, so none are part of its result.
  have hloop : (readItems steps (row trailing (entries.map Source.entry) ++ [])).map
      (fun items => (items, ([] : List Token))) =
      if entries.any fun e => e.2.hasEmptyList then none
      else some (entries.map fun e => .entry e.1.content e.2.value, []) := by
    refine loop_row (fun steps ts => (readItems steps ts).map fun items => (items, []))
      (fun steps item ts => (itemsAfter steps item ts).map fun items => (items, [])) rfl
      (fun _ => rfl) (fun _ _ => rfl) (fun steps _ us => ?_) (fun e _ steps us hsteps hus => ?_)
      trailing steps hsteps
    · rw [itemsAfter]
      cases readItems steps us <;> rfl
    · rw [Source.entry, List.length_cons, List.length_cons] at hsteps
      have hread := e.2.reads steps us (by omega) hus
      show (readItems (steps + 1) (e.1.token :: .mark ':' false :: (e.2.tokens ++ us))).map _ = _
      rw [readItems_entry, hread]
      cases e.2.hasEmptyList <;> rfl
  rw [List.append_nil] at hloop
  split at hloop
  · next hempty =>
    rw [if_pos hempty]
    exact Option.map_eq_none_iff.1 hloop
  · next hempty =>
    obtain ⟨items, hitems, heq⟩ := Option.map_eq_some_iff.1 hloop
    rw [if_neg hempty, hitems, (Prod.mk.inj heq).1]

/-- A definition is read as it was written: keys, values, nesting and order are those that were
written, and `null` stands for itself. If there are square brackets with nothing in them anywhere
then nothing is read. -/
theorem Item.ofText?_written (layout : Layout) (entries : List (Literal × Source))
    (trailing : Bool) :
    Item.ofText? (layout.text (row trailing (entries.map Source.entry))) =
      if entries.any fun e => e.2.hasEmptyList then none
      else some (entries.map fun e => .entry e.1.content e.2.value) := by
  have hitems : ∀ ts ∈ entries.map Source.entry, IsItem ts :=
    List.forall_mem_map.2 fun e _ => e.2.isItem_tokens.entry e.1
  have hapart : Apart (row trailing (entries.map Source.entry)) := by
    simpa using apart_row trailing hitems .nil (by simp) (by simp)
  rw [ofText?, lex_text hapart layout]
  exact readItems_row trailing entries _ (Nat.le_refl _)

example :
    Layout.text (fun _ => ⟨[], by simp⟩) (row false [Source.entry (.ofText "color",
      .map [(.ofText "default", .list [.text (.ofText "red"), .null] true)] false)]) =
      "\"color\":\x7b\"default\":[\"red\",null,]\x7d" := by
  decide +kernel

end AtomicCss.Inline
