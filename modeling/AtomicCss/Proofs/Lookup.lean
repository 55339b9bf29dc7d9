import AtomicCss.Lookup

/-!
# Lookup tables are finite maps

The entries of a table are sorted by their keys, and no key has two entries. Inserting keeps this,
and what is found under a key is what was inserted last.

* `LookupTable.Sorted`: the keys rise from entry to entry; kept by `LookupTable.sorted_insert`.
* `LookupTable.get?_insert`: one insertion changes what is found under one key.
* `LookupTable.get?_insertAll`: what is found under a key after many insertions.
* `LookupTable.LastUnder`: what was inserted last under a key;
  `LookupTable.get?_insertAll_empty` says that this is what is found.
* `LookupTable.mem_entries_iff`: the entries of a table are what is found under their keys.
-/

namespace AtomicCss

namespace LookupKey

variable {a b c : LookupKey}

theorem lt_irrefl (a : LookupKey) : ¬ a < a := by
  rintro (h | ⟨-, h⟩)
  · exact String.lt_irrefl _ h
  · exact List.lt_irrefl _ h

theorem lt_trans (hab : a < b) (hbc : b < c) : a < c := by
  rcases hab with hab | ⟨hab, hab'⟩
  · rcases hbc with hbc | ⟨hbc, -⟩
    · exact .inl (String.lt_trans hab hbc)
    · exact .inl (hbc ▸ hab)
  · rcases hbc with hbc | ⟨hbc, hbc'⟩
    · exact .inl (hab ▸ hbc)
    · exact .inr ⟨hab.trans hbc, List.lt_trans hab' hbc'⟩

/-- Of two different keys one comes before the other. -/
theorem lt_of_not_lt (h : ¬ a < b) (hne : a ≠ b) : b < a := by
  rcases Std.lt_trichotomy a.property b.property with hlt | heq | hlt
  · exact absurd (.inl hlt) h
  · rcases Std.lt_trichotomy a.conditions b.conditions with hlt | heq' | hlt
    · exact absurd (.inr ⟨heq, hlt⟩) h
    · refine absurd ?_ hne
      cases a
      cases b
      exact LookupKey.mk.injEq .. ▸ ⟨heq, heq'⟩
    · exact .inr ⟨heq.symm, hlt⟩
  · exact .inl hlt

end LookupKey

namespace LookupTable

variable {t : LookupTable} {key k : LookupKey} {ref : StyleRef}
  {entries : List (LookupKey × StyleRef)}

/-- The keys rise from entry to entry. -/
def Sorted (entries : List (LookupKey × StyleRef)) : Prop :=
  entries.Pairwise (·.1 < ·.1)

/-! ### One insertion -/

theorem mem_insertSorted {entry : LookupKey × StyleRef} (h : entry ∈ insertSorted key ref entries) :
    entry = (key, ref) ∨ entry ∈ entries := by
  induction entries with
  | nil => exact .inl (List.mem_singleton.1 h)
  | cons first rest ih =>
    unfold insertSorted at h
    split at h
    · exact List.mem_cons.1 h
    · split at h
      · rcases List.mem_cons.1 h with h | h
        · exact .inl h
        · exact .inr (List.mem_cons_of_mem _ h)
      · rcases List.mem_cons.1 h with rfl | h
        · exact .inr List.mem_cons_self
        · exact (ih h).imp_right (List.mem_cons_of_mem _)

/-- Entries stay in order when one is inserted or replaced. -/
theorem sorted_insertSorted (h : Sorted entries) : Sorted (insertSorted key ref entries) := by
  induction entries with
  | nil => exact List.pairwise_singleton _ _
  | cons first rest ih =>
    obtain ⟨hfirst, hrest⟩ := List.pairwise_cons.1 h
    unfold insertSorted
    split
    · next hlt =>
      refine List.pairwise_cons.2 ⟨?_, h⟩
      intro entry hentry
      rcases List.mem_cons.1 hentry with rfl | hentry
      · exact hlt
      · exact LookupKey.lt_trans hlt (hfirst entry hentry)
    · next hnot =>
      split
      · next heq =>
        subst heq
        exact List.pairwise_cons.2 ⟨hfirst, hrest⟩
      · next hne =>
        refine List.pairwise_cons.2 ⟨?_, ih hrest⟩
        intro entry hentry
        rcases mem_insertSorted hentry with rfl | hentry
        · exact LookupKey.lt_of_not_lt hnot hne
        · exact hfirst entry hentry

theorem sorted_insert (h : Sorted t.entries) : Sorted (t.insert key ref).entries :=
  sorted_insertSorted h

/-- The reference that was inserted is found, and every other key keeps its reference. -/
theorem get?_insert : (t.insert key ref).get? k = if key = k then some ref else t.get? k := by
  show ((insertSorted key ref t.entries).find? (·.1 = k)).map Prod.snd =
    if key = k then some ref else (t.entries.find? (·.1 = k)).map Prod.snd
  induction t.entries with
  | nil => by_cases hk : key = k <;> simp [insertSorted, hk]
  | cons first rest ih =>
    unfold insertSorted
    by_cases hlt : key < first.1
    · rw [if_pos hlt]
      by_cases hk : key = k <;> simp [hk]
    · rw [if_neg hlt]
      by_cases heq : key = first.1
      · rw [if_pos heq]
        by_cases hk : key = k <;> simp [hk, ← heq]
      · rw [if_neg heq]
        by_cases hfirst : first.1 = k
        · have hne : key ≠ k := fun hk => heq (hk.trans hfirst.symm)
          simp [hfirst, hne]
        · simp [hfirst, ih]

/-! ### Many insertions -/

/-- The run lemma: a table stays in order through any insertions. -/
theorem sorted_insertAll (h : Sorted t.entries) (inserts : List (LookupKey × StyleRef)) :
    Sorted (t.insertAll inserts).entries := by
  induction inserts generalizing t with
  | nil => exact h
  | cons entry inserts ih => exact ih (sorted_insert h)

/-- Under a key is found what was inserted last, or what was there before. -/
theorem get?_insertAll (t : LookupTable) (inserts : List (LookupKey × StyleRef)) (k : LookupKey) :
    (t.insertAll inserts).get? k =
      ((inserts.reverse.find? (·.1 = k)).map Prod.snd).or (t.get? k) := by
  induction inserts generalizing t with
  | nil => rfl
  | cons entry inserts ih =>
    show ((t.insert entry.1 entry.2).insertAll inserts).get? k = _
    rw [ih, get?_insert, List.reverse_cons, List.find?_append, Option.map_or, Option.or_assoc]
    by_cases hk : entry.1 = k <;> simp [hk]

/-- The reference is the one that was inserted last under the key. -/
def LastUnder (inserts : List (LookupKey × StyleRef)) (key : LookupKey) (ref : StyleRef) : Prop :=
  ∃ before after, inserts = before ++ (key, ref) :: after ∧ ∀ entry ∈ after, entry.1 ≠ key

/-- In a table that was empty, what was inserted last under a key is found there. -/
theorem get?_insertAll_empty {name : String} {inserts : List (LookupKey × StyleRef)} :
    ((empty name).insertAll inserts).get? key = some ref ↔ LastUnder inserts key ref := by
  have hfound : ((empty name).insertAll inserts).get? key =
      (inserts.reverse.find? (·.1 = key)).map Prod.snd := by
    rw [get?_insertAll]
    exact Option.or_none
  rw [hfound, Option.map_eq_some_iff]
  constructor
  · rintro ⟨entry, hfind, rfl⟩
    obtain ⟨hkey, after, before, hinserts, hafter⟩ := List.find?_eq_some_iff_append.1 hfind
    obtain rfl : entry.1 = key := by simpa using hkey
    refine ⟨before.reverse, after.reverse, ?_, by simpa using hafter⟩
    rw [← List.reverse_reverse inserts, hinserts]
    simp
  · rintro ⟨before, after, rfl, hafter⟩
    refine ⟨(key, ref), List.find?_eq_some_iff_append.2 ⟨by simp, ?_⟩, rfl⟩
    exact ⟨after.reverse, before.reverse, by simp, by simpa using hafter⟩

/-- In a table that was empty, nothing is found under a key exactly if nothing was inserted. -/
theorem get?_insertAll_empty_eq_none {name : String} {inserts : List (LookupKey × StyleRef)} :
    ((empty name).insertAll inserts).get? key = none ↔ ∀ entry ∈ inserts, entry.1 ≠ key := by
  rw [get?_insertAll, Option.or_eq_none_iff, Option.map_eq_none_iff, List.find?_eq_none]
  constructor
  · intro h entry hentry
    simpa using h.1 entry (List.mem_reverse.2 hentry)
  · intro h
    refine ⟨fun entry hentry => ?_, rfl⟩
    simpa using h entry (List.mem_reverse.1 hentry)

/-- If no key is given two references, every reference is found. -/
theorem get?_insertAll_empty_of_unique {name : String} {inserts : List (LookupKey × StyleRef)}
    (h : ∀ entry ∈ inserts, ∀ other ∈ inserts, entry.1 = other.1 → entry.2 = other.2) :
    ((empty name).insertAll inserts).get? key = some ref ↔ (key, ref) ∈ inserts := by
  constructor
  · intro hfound
    obtain ⟨before, after, rfl, -⟩ := get?_insertAll_empty.1 hfound
    simp
  · intro hmem
    cases hfound : ((empty name).insertAll inserts).get? key with
    | none => exact absurd rfl (get?_insertAll_empty_eq_none.1 hfound _ hmem)
    | some last =>
      obtain ⟨before, after, hinserts, -⟩ := get?_insertAll_empty.1 hfound
      have hlast : (key, last) ∈ inserts := by simp [hinserts]
      exact congrArg some (h _ hlast _ hmem rfl)

/-- The entries of a sorted table are what is found under their keys. -/
theorem mem_entries_iff (h : Sorted t.entries) :
    (key, ref) ∈ t.entries ↔ t.get? key = some ref := by
  unfold get?
  generalize t.entries = entries at h ⊢
  induction entries with
  | nil => simp
  | cons first rest ih =>
    obtain ⟨hfirst, hrest⟩ := List.pairwise_cons.1 h
    by_cases hkey : first.1 = key
    · -- The key rises after its entry and does not come again.
      have hnone : (key, ref) ∉ rest := by
        intro hmem
        have hlt := hfirst _ hmem
        rw [hkey] at hlt
        exact LookupKey.lt_irrefl _ hlt
      rw [List.find?_cons_of_pos (by simpa using hkey), List.mem_cons, Option.map_some,
        Option.some.injEq]
      constructor
      · rintro (rfl | hmem)
        · rfl
        · exact absurd hmem hnone
      · rintro rfl
        exact .inl (Prod.ext hkey.symm rfl)
    · rw [List.find?_cons_of_neg (by simpa using hkey), ← ih hrest, List.mem_cons]
      constructor
      · rintro (rfl | hmem)
        · exact absurd rfl hkey
        · exact hmem
      · exact .inr

end LookupTable

end AtomicCss
