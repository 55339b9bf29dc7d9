import Mathlib.Data.List.Basic
import Mathlib.Data.List.Induction
import AtomicCss.Keyed

/-!
# Keyed lists as ordered maps

A keyed list with distinct keys is known from its keys in order and from what is found under them.
Pairs that are put one after the other leave each key at the place where it came first, with the
value that came last, and this is all that they leave.

* `eq_of_get?_eq`: the same keys in the same order, with the same values, are the same list.
* `InFirstOrder`: the keys that were written, each once, in the order in which they came first;
  kept by `InFirstOrder.put` and `InFirstOrder.putAll`.
* `get?_putAll`: what is found after pairs were put is the last value among them.
* `keys_putAll`: pairs with distinct keys add the keys that are new.
-/

namespace AtomicCss.Keyed

variable {α : Type} {key k : String} {value : α} {l m entries : List (String × α)}

theorem keys_append (l m : List (String × α)) : keys (l ++ m) = keys l ++ keys m :=
  List.map_append

/-! ### Looking up -/

theorem mem_of_get?_eq_some (h : get? key l = some value) : (key, value) ∈ l := by
  induction l with
  | nil => cases h
  | cons entry rest ih =>
    unfold get? at h
    split at h
    · next hkey =>
      cases h
      exact hkey ▸ List.mem_cons_self
    · exact List.mem_cons_of_mem _ (ih h)

theorem get?_eq_none_of_notMem (h : key ∉ keys l) : get? key l = none := by
  cases hget : get? key l with
  | none => rfl
  | some value => exact absurd (List.mem_map_of_mem (mem_of_get?_eq_some hget)) h

/-- A list with distinct keys is known from its keys and from what is found under them. -/
theorem eq_of_get?_eq (hkeys : keys l = keys m) (hdistinct : (keys l).Nodup)
    (hget : ∀ k, get? k l = get? k m) : l = m := by
  induction l generalizing m with
  | nil => exact (List.map_eq_nil_iff.1 hkeys.symm).symm
  | cons entry rest ih =>
    cases m with
    | nil => cases hkeys
    | cons entry' rest' =>
      obtain ⟨hfirst, hrest⟩ := List.cons.inj hkeys
      obtain ⟨hnew, hdistinct⟩ := List.nodup_cons.1 hdistinct
      have hvalue : some entry.2 = some entry'.2 := by
        have hentry := hget entry.1
        rwa [get?, if_pos rfl, get?, if_pos hfirst.symm] at hentry
      -- The first key comes only once, so that the rests agree on it as well.
      have hget' : ∀ k, get? k rest = get? k rest' := by
        intro k
        by_cases hk : entry.1 = k
        · subst hk
          have hnew' : entry.1 ∉ keys rest' := fun hmem => hnew (hrest ▸ hmem)
          rw [get?_eq_none_of_notMem hnew, get?_eq_none_of_notMem hnew']
        · have hk' : ¬ entry'.1 = k := fun hk' => hk (hfirst.trans hk')
          have hfound := hget k
          rwa [get?, if_neg hk, get?, if_neg hk'] at hfound
      rw [Prod.ext hfirst (Option.some.inj hvalue), ih hrest hdistinct hget']

/-! ### Putting one pair -/

/-- A new key is put at the end. -/
theorem put_of_not_mem (h : key ∉ keys l) : put key value l = l ++ [(key, value)] := by
  induction l with
  | nil => rfl
  | cons entry rest ih =>
    rw [keys_cons, List.mem_cons, not_or] at h
    rw [put, if_neg (Ne.symm h.1), ih h.2, List.cons_append]

/-- A key that is present stays where it is; a new one goes to the end. -/
theorem keys_put (key : String) (value : α) (l : List (String × α)) :
    keys (put key value l) = if key ∈ keys l then keys l else keys l ++ [key] := by
  induction l with
  | nil => rfl
  | cons entry rest ih =>
    unfold put
    by_cases hkey : entry.1 = key
    · rw [if_pos hkey, if_pos (by simp [hkey]), keys_cons, keys_cons, hkey]
    · rw [if_neg hkey, keys_cons, ih, keys_cons]
      by_cases hmem : key ∈ keys rest
      · rw [if_pos hmem, if_pos (List.mem_cons_of_mem _ hmem)]
      · rw [if_neg hmem, if_neg (by simp [hmem, Ne.symm hkey]), List.cons_append]

theorem mem_put {entry : String × α} (h : entry ∈ put key value l) :
    entry = (key, value) ∨ entry ∈ l := by
  induction l with
  | nil => exact .inl (List.mem_singleton.1 h)
  | cons first rest ih =>
    unfold put at h
    split at h
    · exact (List.mem_cons.1 h).imp_right (List.mem_cons_of_mem _)
    · rcases List.mem_cons.1 h with rfl | h
      · exact .inr List.mem_cons_self
      · exact (ih h).imp_right (List.mem_cons_of_mem _)

/-- The list names each of the keys that were written once, and a key that was first written
earlier stands earlier. -/
structure InFirstOrder (ks written : List String) : Prop where
  /-- The keys are those that were written. -/
  mem_iff : ∀ k, k ∈ ks ↔ k ∈ written
  /-- Their first places among all that was written rise from key to key. -/
  rising : ks.Pairwise fun j k => written.idxOf j < written.idxOf k

/-- Distinct keys are in the order in which they were first written. -/
theorem inFirstOrder_of_nodup {ks : List String} (h : ks.Nodup) : InFirstOrder ks ks := by
  refine ⟨fun _ => Iff.rfl, List.pairwise_iff_getElem.2 ?_⟩
  intro i j hi hj hij
  rwa [h.idxOf_getElem i hi, h.idxOf_getElem j hj]

/-- Putting a pair keeps the keys in the order in which they were first written. -/
theorem InFirstOrder.put {written : List String} (h : InFirstOrder (keys l) written) (key : String)
    (value : α) : InFirstOrder (keys (put key value l)) (written ++ [key]) := by
  have hmem : ∀ k, k ∈ keys (Keyed.put key value l) ↔ k ∈ written ++ [key] := by
    intro k
    rw [mem_keys_put, h.mem_iff, List.mem_append, List.mem_singleton, or_comm]
  have hold : (keys l).Pairwise fun j k =>
      (written ++ [key]).idxOf j < (written ++ [key]).idxOf k := by
    refine h.rising.imp_of_mem ?_
    intro j k hj hk hlt
    rwa [List.idxOf_append_of_mem ((h.mem_iff j).1 hj),
      List.idxOf_append_of_mem ((h.mem_iff k).1 hk)]
  refine ⟨hmem, ?_⟩
  rw [keys_put]
  split
  · exact hold
  · next hnew =>
    -- A new key is first written at the end, after every key that there was.
    refine List.pairwise_append.2 ⟨hold, List.pairwise_singleton _ _, ?_⟩
    intro j hj k hk
    obtain rfl := List.mem_singleton.1 hk
    have hj' := (h.mem_iff j).1 hj
    have hnew' : k ∉ written := fun hk => hnew ((h.mem_iff k).2 hk)
    rw [List.idxOf_append_of_mem hj', List.idxOf_append_of_notMem hnew']
    have hlt := List.idxOf_lt_length_of_mem hj'
    omega

/-! ### Putting many pairs -/

theorem putAll_append (l entries entries' : List (String × α)) :
    putAll l (entries ++ entries') = putAll (putAll l entries) entries' :=
  List.foldl_append

theorem mem_putAll {entry : String × α} (h : entry ∈ putAll l entries) :
    entry ∈ l ∨ entry ∈ entries := by
  induction entries generalizing l with
  | nil => exact .inl h
  | cons first rest ih =>
    rcases ih h with h | h
    · rcases mem_put h with rfl | h
      · exact .inr List.mem_cons_self
      · exact .inl h
    · exact .inr (List.mem_cons_of_mem _ h)

/-- The run lemma: keys stay in the order in which they were first written. -/
theorem InFirstOrder.putAll {written : List String} (h : InFirstOrder (keys l) written)
    (entries : List (String × α)) :
    InFirstOrder (keys (putAll l entries)) (written ++ keys entries) := by
  induction entries generalizing l written with
  | nil =>
    rw [keys_nil, List.append_nil]
    exact h
  | cons entry rest ih =>
    have hrest := ih (h.put entry.1 entry.2)
    rwa [List.append_assoc] at hrest

/-- The values of the pairs with the key, in order. -/
def valuesUnder (key : String) (l : List (String × α)) : List α :=
  (l.filter (·.1 = key)).map Prod.snd

theorem valuesUnder_append (key : String) (l m : List (String × α)) :
    valuesUnder key (l ++ m) = valuesUnder key l ++ valuesUnder key m := by
  rw [valuesUnder, List.filter_append, List.map_append]
  rfl

/-- Under distinct keys there is one value each. -/
theorem valuesUnder_of_nodup (h : (keys l).Nodup) (key : String) :
    valuesUnder key l = (get? key l).toList := by
  induction l with
  | nil => rfl
  | cons entry rest ih =>
    obtain ⟨hnew, hrest⟩ := List.nodup_cons.1 h
    have hsplit : valuesUnder key (entry :: rest) =
        (if entry.1 = key then [entry.2] else []) ++ valuesUnder key rest := by
      by_cases hkey : entry.1 = key <;> simp [valuesUnder, hkey]
    rw [hsplit, ih hrest, get?]
    by_cases hkey : entry.1 = key
    · rw [if_pos hkey, if_pos hkey, ← hkey, get?_eq_none_of_notMem hnew]
      rfl
    · rw [if_neg hkey, if_neg hkey, List.nil_append]

/-- After pairs were put, the last value among them is found, or else what was there before. -/
theorem get?_putAll (k : String) (l entries : List (String × α)) :
    get? k (putAll l entries) = (valuesUnder k entries).getLast?.or (get? k l) := by
  induction entries using List.reverseRecOn with
  | nil => rfl
  | append_singleton entries entry ih =>
    rw [putAll_append, valuesUnder_append]
    show get? k (put entry.1 entry.2 (putAll l entries)) = _
    rw [get?_put, ih]
    by_cases hkey : entry.1 = k
    · simp [valuesUnder, hkey]
    · simp [valuesUnder, hkey]

/-- Putting pairs with new keys appends them. -/
theorem putAll_of_nodup (h : (keys (l ++ entries)).Nodup) : putAll l entries = l ++ entries := by
  induction entries generalizing l with
  | nil =>
    rw [List.append_nil]
    rfl
  | cons entry rest ih =>
    have hsplit : l ++ entry :: rest = (l ++ [entry]) ++ rest := by simp
    have hnew : entry.1 ∉ keys l := by
      intro hmem
      rw [keys_append, List.nodup_append] at h
      exact h.2.2 _ hmem _ List.mem_cons_self rfl
    calc putAll l (entry :: rest)
      _ = putAll (put entry.1 entry.2 l) rest := rfl
      _ = putAll (l ++ [entry]) rest := by rw [put_of_not_mem hnew]
      _ = (l ++ [entry]) ++ rest := ih (hsplit ▸ h)
      _ = l ++ entry :: rest := hsplit.symm

/-- Pairs with distinct keys add the keys that are new, in order. -/
theorem keys_putAll (h : (keys entries).Nodup) :
    keys (putAll l entries) = keys l ++ (keys entries).filter (· ∉ keys l) := by
  induction entries generalizing l with
  | nil => exact (List.append_nil _).symm
  | cons entry rest ih =>
    obtain ⟨hnew, hrest⟩ := List.nodup_cons.1 h
    show keys (putAll (put entry.1 entry.2 l) rest) = _
    rw [ih hrest, keys_put, keys_cons]
    by_cases hmem : entry.1 ∈ keys l
    · rw [if_pos hmem, List.filter_cons_of_neg (by simpa using hmem)]
    · rw [if_neg hmem, List.filter_cons_of_pos (by simpa using hmem), List.append_assoc]
      have hfilter : (keys rest).filter (· ∉ keys l ++ [entry.1]) =
          (keys rest).filter (· ∉ keys l) := by
        refine List.filter_congr ?_
        intro k hk
        have hne : k ≠ entry.1 := fun heq => hnew (heq ▸ hk)
        simp [hne]
      rw [hfilter, List.singleton_append]

end AtomicCss.Keyed
