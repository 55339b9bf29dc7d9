import AtomicCss.Proofs.Condition
import AtomicCss.Proofs.Expansion.Shorthand

/-!
# Where the properties and conditions of declarations come from

A leaf gives declarations of its property, or of the longhands of a shorthand, under the path on
which the walk reached it, and the walk adds to its path what it reads off the keys of conditional
maps.

* `Declaration.IsOf`: a declaration of a property or of one of its longhands, under a path.
* `isOf_of_mem_walk`: the walk over a value of a property gives no others, under paths that go on
  with conditions read off keys.
* `Declaration.Expanded`: a declaration that the expansion of some definition gives.
* `Declaration.Expanded.isRead`: all conditions of such a declaration are read off keys.
-/

namespace AtomicCss

/-- A declaration of the property itself or of a longhand that it sets, under the path. -/
structure Declaration.IsOf (d : Declaration) (property : String) (path : List Condition) :
    Prop where
  /-- The property is the given one, or one that a value of it sets. -/
  property : d.property = property ∨ d.property ∈ targets property
  /-- The conditions are those of the path. -/
  conditions : d.conditions = path

/-! ### Leaves -/

section Leaves

variable {options : Options} {property : String} {path : List Condition} {d : Declaration}

/-- Unsetting a property declares only what the property sets, under the path. -/
theorem isOf_of_mem_expandNull (h : d ∈ expandNull property path) : d.IsOf property path := by
  obtain ⟨target, htarget, rfl⟩ := List.mem_map.1 h
  exact ⟨.inr htarget, rfl⟩

theorem isOf_of_mem_expandNumber {x : Float} (h : d ∈ expandNumber options property path x) :
    d.IsOf property path := by
  obtain ⟨target, htarget, rfl⟩ := List.mem_map.1 h
  exact ⟨.inr htarget, rfl⟩

theorem isOf_of_mem_expandPlain {raw : String} {ds : List Declaration}
    (hds : expandPlain options property path raw = .ok ds) (h : d ∈ ds) :
    d.IsOf property path := by
  obtain ⟨value, -, rfl⟩ := Outcome.map_eq_ok.1 hds
  rw [List.mem_singleton.1 h]
  exact ⟨.inl rfl, rfl⟩

/-- Parts give declarations of the longhands that they are for. -/
theorem isOf_of_mem_expandParts {parts : List (String × String)} {ds : List Declaration}
    (hparts : ∀ part ∈ parts, part.1 ∈ targets property)
    (hds : expandParts options path parts = .ok ds) (h : d ∈ ds) : d.IsOf property path := by
  induction parts generalizing ds with
  | nil =>
    cases hds
    cases h
  | cons part parts ih =>
    obtain ⟨value, -, hds⟩ := Outcome.bind_eq_ok.1 hds
    obtain ⟨rest, hrest, hds⟩ := Outcome.bind_eq_ok.1 hds
    cases hds
    rcases List.mem_cons.1 h with rfl | h
    · exact ⟨.inr (hparts part List.mem_cons_self), rfl⟩
    · exact ih (fun p hp => hparts p (List.mem_cons_of_mem part hp)) hrest h

theorem isOf_of_mem_expandText {raw : String} {ds : List Declaration}
    (hds : expandText options property path raw = .ok ds) (h : d ∈ ds) :
    d.IsOf property path := by
  unfold expandText at hds
  split at hds
  · exact isOf_of_mem_expandPlain hds h
  case h_2 s hs =>
    split at hds
    · exact isOf_of_mem_expandPlain hds h
    · unfold expandShorthand at hds
      split at hds
      · cases hds
      · obtain ⟨assigned, hassigned, hds⟩ := Outcome.bind_eq_ok.1 hds
        have htargets : targets property = s.longhands := by simp only [targets, hs]
        refine isOf_of_mem_expandParts (fun part hpart => ?_) hds h
        obtain ⟨-, -, rfl⟩ := Shorthand.distribute_eq_ok_iff.1 hassigned
        rw [htargets]
        exact Shorthand.mem_longhands_of_mem_assigned hpart

theorem isOf_of_mem_expandFallbacks {items : List StyleValue} {ds : List Declaration}
    (hds : expandFallbacks options property path items = .ok ds) (h : d ∈ ds) :
    d.IsOf property path := by
  unfold expandFallbacks at hds
  split at hds
  · cases hds
  · obtain ⟨values, -, hds⟩ := Outcome.bind_eq_ok.1 hds
    split at hds
    · cases hds
    · cases hds
      rw [List.mem_singleton.1 h]
      exact ⟨.inl rfl, rfl⟩

/-- The declarations of a leaf are of its property, if all that it may give are. -/
theorem isOf_of_mem_leafEvent {outcome : Except StyleError (List Declaration)}
    (hof : ∀ ds, outcome = .ok ds → ∀ d ∈ ds, d.IsOf property path)
    (h : d ∈ (leafEvent property outcome).declarations) : d.IsOf property path := by
  cases outcome with
  | error error => cases h
  | ok ds => exact hof ds rfl d h

end Leaves

/-! ### The walk -/

section Walk

variable {options : Options}

/-- What is declared under a path is declared under it with no further condition. -/
theorem Declaration.IsOf.exists_keys {d : Declaration} {property : String} {path : List Condition}
    (h : d.IsOf property path) : ∃ keys : List String, d.IsOf property (path ++ keys.map .ofKey) :=
  ⟨[], by rwa [List.map_nil, List.append_nil]⟩

mutual

/-- The walk over a value of a property declares it or its longhands, under its path and further
conditions read off keys. -/
theorem isOf_of_mem_walk {property : String} {path : List Condition} :
    ∀ {value : StyleValue} {d : Declaration},
      d ∈ (walk options property path value).flatMap Event.declarations →
        ∃ keys : List String, d.IsOf property (path ++ keys.map .ofKey)
  | .null, d, h => by
    rw [walk, List.flatMap_singleton] at h
    exact (isOf_of_mem_expandNull h).exists_keys
  | .number x, d, h => by
    rw [walk, List.flatMap_singleton] at h
    exact (isOf_of_mem_expandNumber h).exists_keys
  | .text raw, d, h => by
    rw [walk, List.flatMap_singleton] at h
    exact (isOf_of_mem_leafEvent
      (fun ds hds d hd => isOf_of_mem_expandText hds hd) h).exists_keys
  | .fallbacks items, d, h => by
    rw [walk, List.flatMap_singleton] at h
    exact (isOf_of_mem_leafEvent
      (fun ds hds d hd => isOf_of_mem_expandFallbacks hds hd) h).exists_keys
  | .conditional entries, d, h => by
    rw [walk] at h
    exact isOf_of_mem_walkEntries h

/-- Declarations from the entries of a map have the path of the map in front of their conditions,
and the keys on the way behind it. -/
theorem isOf_of_mem_walkEntries {property : String} {path : List Condition} :
    ∀ {entries : List (String × StyleValue)} {d : Declaration},
      d ∈ (walkEntries options property path entries).flatMap Event.declarations →
        ∃ keys : List String, d.IsOf property (path ++ keys.map .ofKey)
  | [], d, h => by cases h
  | (key, value) :: rest, d, h => by
    rw [walkEntries, List.flatMap_append, List.mem_append] at h
    rcases h with h | h
    · split at h
      · exact isOf_of_mem_walk h
      · rw [List.flatMap_append, List.mem_append] at h
        rcases h with h | h
        · -- A condition on the way gives no declaration.
          unfold conditionEvents at h
          split at h <;> cases h
        · obtain ⟨keys, hkeys⟩ := isOf_of_mem_walk h
          refine ⟨key :: keys, ?_⟩
          rwa [List.map_cons, List.append_cons]
    · exact isOf_of_mem_walkEntries h

end

/-- Under a path that is read off keys, the walk gives declarations whose conditions are. -/
theorem isRead_of_mem_walk {property : String} {path : List Condition} {value : StyleValue}
    {d : Declaration} (hpath : ∀ c ∈ path, c.IsRead)
    (h : d ∈ (walk options property path value).flatMap Event.declarations) :
    ∀ c ∈ d.conditions, c.IsRead := by
  obtain ⟨keys, hof⟩ := isOf_of_mem_walk h
  intro c hc
  rw [hof.conditions, List.mem_append] at hc
  rcases hc with hc | hc
  · exact hpath c hc
  · obtain ⟨key, -, rfl⟩ := List.mem_map.1 hc
    exact Condition.isRead_ofKey key

/-- The conditions of what an entry declares are read off its keys. -/
theorem isRead_of_mem_walkEntry {key : String} {value : StyleValue} {d : Declaration}
    (h : d ∈ (walkEntry options key value).flatMap Event.declarations) :
    ∀ c ∈ d.conditions, c.IsRead := by
  unfold walkEntry at h
  split at h
  · split at h
    · simp only [walkGroup, List.flatMap_assoc] at h
      obtain ⟨entry, -, h⟩ := List.mem_flatMap.1 h
      refine isRead_of_mem_walk (fun c hc => ?_) h
      rw [List.mem_singleton.1 hc]
      exact Condition.isRead_ofKey key
    · cases h
  · split at h
    · cases h
    · exact isRead_of_mem_walk (by simp) h

end Walk

namespace Declaration

/-- A declaration that the expansion of some definition gives. -/
def Expanded (d : Declaration) : Prop :=
  ∃ options definition, d ∈ (expandDefinition options definition).declarations

/-- All conditions of a declaration that an expansion gives are read off keys. -/
theorem Expanded.isRead {d : Declaration} (h : d.Expanded) : ∀ c ∈ d.conditions, c.IsRead := by
  obtain ⟨options, definition, hd⟩ := h
  simp only [Expansion.declarations, expandDefinition, List.flatMap_assoc] at hd
  obtain ⟨entry, -, hd⟩ := List.mem_flatMap.1 hd
  exact isRead_of_mem_walkEntry hd

end Declaration

end AtomicCss
