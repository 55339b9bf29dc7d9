import AtomicCss.Proofs.Expansion.Attempts

/-!
# Removing what is attempted

Each leaf of a definition has an address: its place in its map, after the places of the maps around
it. Removing the entry at this address removes one attempt and leaves all others as they are, in the
same order, however deep the entry is.

* `StyleValue.eraseAt`, `Definition.eraseAt`: removing the entry at an address.
* `StyleValue.leafAt?`, `Definition.attemptAt?`: what is attempted at an address.
  `Definition.mem_attempts_iff` is that everything that is attempted has one.
* `loses_eraseAt`: the step from an entry to the map that it is in.
* `Definition.loses_attempts`: what is attempted once an entry is removed.
-/

namespace AtomicCss

/-! ### Addresses -/

namespace StyleValue

/-- Changes the entries of a conditional map. -/
def mapEntries (f : List (String × StyleValue) → List (String × StyleValue)) :
    StyleValue → StyleValue
  | .conditional entries => .conditional (f entries)
  | value => value

/-- Removes the entry at an address: the one at a place, or one in the map that is there. -/
def eraseAt : List Nat → List (String × StyleValue) → List (String × StyleValue)
  | [], entries => entries
  | [i], entries => entries.eraseIdx i
  | i :: j :: address, entries =>
    entries.modify i fun entry => (entry.1, entry.2.mapEntries (eraseAt (j :: address)))

/-- Removing an entry adds no key and changes no order. -/
theorem keys_eraseAt_sublist (address : List Nat) (entries : List (String × StyleValue)) :
    (Keyed.keys (eraseAt address entries)).Sublist (Keyed.keys entries) := by
  match address with
  | [] => exact .refl _
  | [i] => exact (List.eraseIdx_sublist entries i).map Prod.fst
  | i :: j :: address =>
    have hkeys : Keyed.keys (eraseAt (i :: j :: address) entries) = Keyed.keys entries := by
      refine List.ext_getElem? fun k => ?_
      simp only [eraseAt, Keyed.keys, List.getElem?_map, List.getElem?_modify]
      split <;> cases entries[k]? <;> rfl
    exact hkeys ▸ .refl _

end StyleValue

open StyleValue

/-- What is attempted at an address in the entries of a map, if it is known for each entry. -/
def attemptIn? (attemptAt? : String × StyleValue → List Nat → Option Attempt)
    (entries : List (String × StyleValue)) : List Nat → Option Attempt
  | [] => none
  | i :: address => entries[i]?.bind (attemptAt? · address)

/-- The leaf at an address in a value of the property, which is reached under the conditions of a
path. -/
def StyleValue.leafAt? (property : String) (path : List Condition) (value : StyleValue) :
    List Nat → Option Attempt
  | [] =>
    match value with
    | .conditional _ => none
    | value => some (.leaf property path value)
  | i :: address =>
    match value with
    | .conditional entries =>
      entries[i]?.bind fun entry => leafAt? property (pathUnder path entry.1) entry.2 address
    | _ => none

/-- An entry that is rejected has the address of the entry. -/
def rejectedAt? (key : String) (reason : Unsupported) (address : List Nat) : Option Attempt :=
  if address = [] then some (.rejected key reason) else none

/-- What is attempted at an address under the key of a pseudo-element. -/
def groupAttemptAt? (key : String) : StyleValue → List Nat → Option Attempt
  | .conditional group =>
    attemptIn? (fun entry => entry.2.leafAt? (Property.dashed entry.1) [.ofKey key]) group
  | other => rejectedAt? key (.groupValue other.kind)

/-- What is attempted at an address in an entry of a definition. -/
def entryAttemptAt? (key : String) (value : StyleValue) : List Nat → Option Attempt :=
  if isGroupKey key then groupAttemptAt? key value
  else if isConditionKey key then rejectedAt? key .conditionKey
  else value.leafAt? (Property.dashed key) []

namespace Definition

/-- Removes the entry at an address. -/
def eraseAt (d : Definition) (address : List Nat) : Definition :=
  ⟨StyleValue.eraseAt address d.entries, d.nodup_keys.sublist (keys_eraseAt_sublist _ _)⟩

/-- What is attempted at an address. -/
def attemptAt? (d : Definition) : List Nat → Option Attempt :=
  attemptIn? (fun entry => entryAttemptAt? entry.1 entry.2) d.entries

end Definition

/-- The leaf at an address in a map is the one in the entry that the address begins with. -/
theorem leafAt?_conditional (property : String) (path : List Condition)
    (entries : List (String × StyleValue)) :
    (conditional entries).leafAt? property path =
      attemptIn? (fun entry => entry.2.leafAt? property (pathUnder path entry.1)) entries := by
  funext address
  cases address <;> rfl

/-- The three kinds of entries of a definition. -/
theorem entry_cases (key : String) :
    (entryAttempts key = groupAttempts key ∧ entryAttemptAt? key = groupAttemptAt? key) ∨
      (entryAttempts key = (fun _ => [.rejected key .conditionKey]) ∧
        entryAttemptAt? key = fun _ => rejectedAt? key .conditionKey) ∨
      (entryAttempts key = leaves (Property.dashed key) [] ∧
        entryAttemptAt? key = leafAt? (Property.dashed key) []) := by
  unfold entryAttempts entryAttemptAt?
  by_cases hgroup : isGroupKey key
  · exact .inl ⟨funext fun _ => if_pos hgroup, funext fun _ => if_pos hgroup⟩
  · simp only [hgroup]
    by_cases hcondition : isConditionKey key
    · exact .inr (.inl ⟨funext fun _ => if_pos hcondition, funext fun _ => if_pos hcondition⟩)
    · exact .inr (.inr ⟨funext fun _ => if_neg hcondition, funext fun _ => if_neg hcondition⟩)

/-! ### Everything has an address -/

section Addresses

variable {a : Attempt}

/-- If what is attempted in an entry has an address there, then it has one in the map. -/
theorem exists_attemptIn? {attempts : String × StyleValue → List Attempt}
    {attemptAt? : String × StyleValue → List Nat → Option Attempt}
    {entries : List (String × StyleValue)}
    (hall : ∀ entry ∈ entries, a ∈ attempts entry → ∃ address, attemptAt? entry address = some a)
    (h : a ∈ entries.flatMap attempts) :
    ∃ address, attemptIn? attemptAt? entries address = some a := by
  obtain ⟨entry, hentry, h⟩ := List.mem_flatMap.1 h
  obtain ⟨i, hget⟩ := List.mem_iff_getElem?.1 hentry
  obtain ⟨address, ha⟩ := hall entry hentry h
  exact ⟨i :: address, by rw [attemptIn?, hget, Option.bind_some, ha]⟩

mutual

/-- Every leaf of a value has an address. -/
theorem exists_leafAt? {property : String} {path : List Condition} (value : StyleValue)
    (h : a ∈ value.leaves property path) :
    ∃ address, value.leafAt? property path address = some a := by
  cases value with
  | conditional entries =>
    rw [leaves, entryLeaves_eq_flatMap] at h
    rw [leafAt?_conditional]
    exact exists_attemptIn? (fun entry hentry => exists_leafAt?_of_mem entries hentry) h
  | _ => exact ⟨[], congrArg some (List.mem_singleton.1 h).symm⟩

/-- Every leaf in an entry of a map has an address there. -/
theorem exists_leafAt?_of_mem {property : String} {path : List Condition} :
    ∀ (entries : List (String × StyleValue)) {entry : String × StyleValue}, entry ∈ entries →
      a ∈ entry.2.leaves property path →
        ∃ address, entry.2.leafAt? property path address = some a
  | (_, value) :: rest, _, hentry, h => by
    rcases List.mem_cons.1 hentry with rfl | hentry
    · exact exists_leafAt? value h
    · exact exists_leafAt?_of_mem rest hentry h

end

theorem exists_rejectedAt? {key : String} {reason : Unsupported}
    (h : a ∈ [Attempt.rejected key reason]) : ∃ address, rejectedAt? key reason address = some a :=
  ⟨[], congrArg some (List.mem_singleton.1 h).symm⟩

/-- Everything attempted under the key of a pseudo-element has an address. -/
theorem exists_groupAttemptAt? {key : String} {value : StyleValue}
    (h : a ∈ groupAttempts key value) : ∃ address, groupAttemptAt? key value address = some a := by
  cases value with
  | conditional group => exact exists_attemptIn? (fun entry _ => exists_leafAt? entry.2) h
  | _ => exact exists_rejectedAt? h

/-- Everything attempted in an entry of a definition has an address. -/
theorem exists_entryAttemptAt? {key : String} {value : StyleValue}
    (h : a ∈ entryAttempts key value) : ∃ address, entryAttemptAt? key value address = some a := by
  rcases entry_cases key with ⟨hattempts, hat⟩ | ⟨hattempts, hat⟩ | ⟨hattempts, hat⟩ <;>
    rw [hattempts] at h <;> rw [hat]
  · exact exists_groupAttemptAt? h
  · exact exists_rejectedAt? h
  · exact exists_leafAt? value h

end Addresses

/-! ### Removing one attempt -/

/-- The second list is the first without the given attempt at one place. -/
def Loses (a : Attempt) (xs ys : List Attempt) : Prop :=
  ∃ before after, xs = before ++ a :: after ∧ ys = before ++ after

namespace Loses

variable {a : Attempt} {xs ys : List Attempt}

theorem mem (h : Loses a xs ys) : a ∈ xs := by
  obtain ⟨before, after, rfl, -⟩ := h
  exact List.mem_append_right before List.mem_cons_self

theorem append_left (zs : List Attempt) (h : Loses a xs ys) : Loses a (zs ++ xs) (zs ++ ys) := by
  obtain ⟨before, after, rfl, rfl⟩ := h
  exact ⟨zs ++ before, after, (List.append_assoc ..).symm, (List.append_assoc ..).symm⟩

theorem append_right (zs : List Attempt) (h : Loses a xs ys) : Loses a (xs ++ zs) (ys ++ zs) := by
  obtain ⟨before, after, rfl, rfl⟩ := h
  exact ⟨before, after ++ zs, by simp, List.append_assoc ..⟩

end Loses

/-- Whether the attempts of values, as a function gives them, have the given attempt at an address:
it is the only one of a leaf, and it is what a map loses with the entry at the address. -/
structure HasAt (attempts : StyleValue → List Attempt) (a : Attempt) (address : List Nat)
    (value : StyleValue) : Prop where
  /-- At the empty address there is a leaf. -/
  leaf : address = [] → attempts value = [a]
  /-- At any other address there is an entry to remove. -/
  loses : address ≠ [] →
    Loses a (attempts value) (attempts (value.mapEntries (StyleValue.eraseAt address)))

/-- From an entry to the map that it is in: either the entry goes, or something in its value. -/
theorem loses_eraseAt {attempts : String × StyleValue → List Attempt}
    {attemptAt? : String × StyleValue → List Nat → Option Attempt} {a : Attempt}
    {address : List Nat}
    (hall : ∀ entry, attemptAt? entry address = some a →
      HasAt (fun value => attempts (entry.1, value)) a address entry.2)
    {entries : List (String × StyleValue)} {i : Nat}
    (h : attemptIn? attemptAt? entries (i :: address) = some a) :
    Loses a (entries.flatMap attempts)
      ((StyleValue.eraseAt (i :: address) entries).flatMap attempts) := by
  induction entries generalizing i with
  | nil => cases h
  | cons first rest ih =>
    cases i with
    | zero =>
      -- The address ends here, or goes on into the value of this entry.
      have hfirst := hall first h
      rw [List.flatMap_cons]
      cases address with
      | nil =>
        have hleaf : attempts first = [a] := hfirst.leaf rfl
        rw [hleaf]
        exact ⟨[], _, rfl, rfl⟩
      | cons j address => exact (hfirst.loses (List.cons_ne_nil j address)).append_right _
    | succ i =>
      have hcons : StyleValue.eraseAt ((i + 1) :: address) (first :: rest) =
          first :: StyleValue.eraseAt (i :: address) rest := by cases address <;> rfl
      rw [hcons, List.flatMap_cons, List.flatMap_cons]
      exact (ih h).append_left _

/-- At the address of a leaf there is that leaf alone. The induction is on the address. -/
theorem hasAt_leafAt? {property : String} {a : Attempt} {address : List Nat} :
    ∀ {path : List Condition} {value : StyleValue},
      value.leafAt? property path address = some a →
        HasAt (leaves property path) a address value := by
  -- The induction is on the address, since each of its places leads into one map.
  induction address with
  | nil =>
    intro path value h
    cases value with
    | conditional entries => cases h
    | _ =>
      cases h
      exact ⟨fun _ => rfl, fun hne => absurd rfl hne⟩
  | cons i address ih =>
    intro path value h
    cases value with
    | conditional entries =>
      rw [leafAt?_conditional] at h
      refine ⟨fun hnil => absurd hnil (List.cons_ne_nil i address), fun _ => ?_⟩
      rw [mapEntries, leaves, leaves, entryLeaves_eq_flatMap, entryLeaves_eq_flatMap]
      exact loses_eraseAt (fun entry => ih) h
    | _ => cases h

/-- A rejected entry is the only attempt at its address. -/
theorem hasAt_rejectedAt? {key : String} {reason : Unsupported} {a : Attempt} {address : List Nat}
    (h : rejectedAt? key reason address = some a) {attempts : StyleValue → List Attempt}
    {value : StyleValue} (hvalue : attempts value = [.rejected key reason]) :
    HasAt attempts a address value := by
  unfold rejectedAt? at h
  split at h
  case isTrue hnil =>
    cases h
    exact ⟨fun _ => hvalue, fun hne => absurd hnil hne⟩
  case isFalse => cases h

/-- Under the key of a pseudo-element, a member is lost at its address and no other is. -/
theorem hasAt_groupAttemptAt? {key : String} {value : StyleValue} {a : Attempt}
    {address : List Nat} (h : groupAttemptAt? key value address = some a) :
    HasAt (groupAttempts key) a address value := by
  cases value with
  | conditional group =>
    cases address with
    | nil => cases h
    | cons i address =>
      refine ⟨fun hnil => absurd hnil (List.cons_ne_nil i address), fun _ => ?_⟩
      exact loses_eraseAt (fun entry => hasAt_leafAt?) h
  | _ => exact hasAt_rejectedAt? h rfl

theorem hasAt_entryAttemptAt? {key : String} {value : StyleValue} {a : Attempt}
    {address : List Nat} (h : entryAttemptAt? key value address = some a) :
    HasAt (entryAttempts key) a address value := by
  rcases entry_cases key with ⟨hattempts, hat⟩ | ⟨hattempts, hat⟩ | ⟨hattempts, hat⟩ <;>
    rw [hat] at h <;> rw [hattempts]
  · exact hasAt_groupAttemptAt? h
  · exact hasAt_rejectedAt? h rfl
  · exact hasAt_leafAt? h

namespace Definition

variable {d : Definition} {address : List Nat} {a : Attempt}

/-- Removing an entry where something is attempted leaves everything else that is attempted. -/
theorem loses_attempts (h : d.attemptAt? address = some a) :
    Loses a d.attempts (d.eraseAt address).attempts := by
  cases address with
  | nil => cases h
  | cons i address => exact loses_eraseAt (fun entry => hasAt_entryAttemptAt?) h

/-- Everything that is attempted has an address. -/
theorem mem_attempts_iff : a ∈ d.attempts ↔ ∃ address, d.attemptAt? address = some a := by
  constructor
  · exact exists_attemptIn? fun entry _ => exists_entryAttemptAt?
  · rintro ⟨address, h⟩
    exact (loses_attempts h).mem

end Definition

end AtomicCss
