/-!
# Keyed lists

A list of pairs in which a key names its value and the order of the pairs counts. Putting a value
under a key that is present replaces the value where it stands; a new key goes to the end.

* `Keyed.put` replaces in place or appends, and `Keyed.putAll` puts pair after pair.
* `Keyed.get?` looks a key up.
* `Keyed.nodup_put`: keys that are pairwise distinct stay so.
-/

namespace AtomicCss.Keyed

variable {α : Type}

/-- The keys in order. -/
def keys (l : List (String × α)) : List String :=
  l.map Prod.fst

/-- Puts a value under a key: in place if the key is present, at the end otherwise. -/
def put (key : String) (value : α) : List (String × α) → List (String × α)
  | [] => [(key, value)]
  | entry :: rest =>
    if entry.1 = key then (key, value) :: rest else entry :: put key value rest

/-- Puts the pairs of `entries` one after the other. -/
def putAll (l entries : List (String × α)) : List (String × α) :=
  entries.foldl (fun l entry => put entry.1 entry.2 l) l

/-- The value of the first pair with the key. -/
def get? (key : String) : List (String × α) → Option α
  | [] => none
  | entry :: rest => if entry.1 = key then some entry.2 else get? key rest

@[simp] theorem keys_nil : keys ([] : List (String × α)) = [] := rfl

@[simp] theorem keys_cons (entry : String × α) (rest : List (String × α)) :
    keys (entry :: rest) = entry.1 :: keys rest := rfl

/-- Putting adds no key but the given one. -/
theorem mem_keys_put {key k : String} {value : α} {l : List (String × α)} :
    k ∈ keys (put key value l) ↔ k = key ∨ k ∈ keys l := by
  induction l with
  | nil => simp [put]
  | cons entry rest ih =>
    unfold put
    split
    · next h => simp [h]
    · simp only [keys_cons, List.mem_cons, ih]
      grind

/-- Keys that are pairwise distinct stay so when a value is put. -/
theorem nodup_put {key : String} {value : α} {l : List (String × α)} (h : (keys l).Nodup) :
    (keys (put key value l)).Nodup := by
  induction l with
  | nil => simp [put]
  | cons entry rest ih =>
    have hnot : entry.1 ∉ keys rest := (List.nodup_cons.1 h).1
    have hrest : (keys rest).Nodup := (List.nodup_cons.1 h).2
    unfold put
    split
    · next hkey =>
      rw [keys_cons, List.nodup_cons]
      exact ⟨hkey ▸ hnot, hrest⟩
    · next hkey =>
      rw [keys_cons, List.nodup_cons, mem_keys_put]
      exact ⟨fun hmem => hmem.elim hkey hnot, ih hrest⟩

/-- Keys that are pairwise distinct stay so when values are put one after the other. -/
theorem nodup_putAll {l entries : List (String × α)} (h : (keys l).Nodup) :
    (keys (putAll l entries)).Nodup := by
  induction entries generalizing l with
  | nil => exact h
  | cons entry rest ih => exact ih (nodup_put h)

/-- The value put is the one found; every other key keeps its value. -/
theorem get?_put {key k : String} {value : α} {l : List (String × α)} :
    get? k (put key value l) = if key = k then some value else get? k l := by
  induction l with
  | nil => simp [put, get?]
  | cons entry rest ih =>
    unfold put
    by_cases hkey : entry.1 = key
    · rw [if_pos hkey]
      by_cases hk : key = k
      · simp [get?, hk]
      · simp [get?, hk, hkey]
    · rw [if_neg hkey]
      by_cases hk : entry.1 = k
      · have hne : key ≠ k := fun h => hkey (hk.trans h.symm)
        simp [get?, hk, hne]
      · simp [get?, hk, ih]

end AtomicCss.Keyed
