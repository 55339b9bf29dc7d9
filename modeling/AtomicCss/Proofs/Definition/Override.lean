import AtomicCss.Definition
import AtomicCss.Proofs.Keyed

/-!
# Definitions that override one another

A definition is built by setting properties and by extending it with other definitions, which is how
styles are spread into one another. Whatever is done to it, a property stands where it was set first
and has the value that it was given last: the order comes from the earlier definition and the values
from the later one. So it does not matter in which groups definitions are spread into one another.

* `Definition.eq_of_get?_eq`: definitions are known from their properties and values.
* `Definition.keys_extend`, `Definition.get?_extend`: the properties and the values of an extension.
* `Definition.Edit`: what can be done to a definition; `Definition.entries_edited` says that many
  edits put their entries one after the other.
* `Definition.edited_orderedOverride`: order and values after any edits, and the laws of extension.
-/

namespace AtomicCss.Definition

/-- Definitions with the same properties in the same order and with the same values are equal. -/
theorem eq_of_get?_eq {d e : Definition}
    (hkeys : Keyed.keys d.entries = Keyed.keys e.entries) (hget : ∀ k, d.get? k = e.get? k) :
    d = e :=
  ext_entries (Keyed.eq_of_get?_eq hkeys d.nodup_keys hget)

/-- Entries with distinct keys are the entries of the definition that sets them. -/
theorem entries_ofEntries {entries : List (String × StyleValue)}
    (h : (Keyed.keys entries).Nodup) : (ofEntries entries).entries = entries :=
  Keyed.putAll_of_nodup h

/-! ### Extending -/

/-- An extension has the properties that there were, and after them the new ones. -/
theorem keys_extend (d e : Definition) :
    Keyed.keys (d.extend e).entries =
      Keyed.keys d.entries ++ (Keyed.keys e.entries).filter (· ∉ Keyed.keys d.entries) :=
  Keyed.keys_putAll e.nodup_keys

/-- The definition by which another one is extended takes precedence. -/
theorem get?_extend (d e : Definition) (k : String) :
    (d.extend e).get? k = (e.get? k).or (d.get? k) := by
  show Keyed.get? k (Keyed.putAll d.entries e.entries) = _
  rw [Keyed.get?_putAll, Keyed.valuesUnder_of_nodup e.nodup_keys]
  show (e.get? k).toList.getLast?.or (d.get? k) = _
  cases e.get? k <;> rfl

/-- Definitions form a monoid under extension, with the empty one as its unit. -/
theorem extend_assoc (d e f : Definition) : (d.extend e).extend f = d.extend (e.extend f) := by
  refine eq_of_get?_eq ?_ ?_
  · simp only [keys_extend, List.filter_append, List.append_assoc, List.filter_filter]
    congr 2
    -- What is new to `d` and to what `e` adds to it is what is new to `d` and to `e`.
    refine List.filter_congr ?_
    intro k _
    by_cases hd : k ∈ Keyed.keys d.entries <;> simp [hd]
  · intro k
    simp only [get?_extend, Option.or_assoc]

theorem extend_empty (d : Definition) : d.extend empty = d := rfl

theorem empty_extend (d : Definition) : empty.extend d = d :=
  ext_entries (Keyed.putAll_of_nodup d.nodup_keys)

theorem extend_self (d : Definition) : d.extend d = d := by
  refine eq_of_get?_eq ?_ ?_
  · rw [keys_extend]
    have hnone : (Keyed.keys d.entries).filter (· ∉ Keyed.keys d.entries) = [] :=
      List.filter_eq_nil_iff.2 fun k hk => by simpa using hk
    rw [hnone, List.append_nil]
  · intro k
    rw [get?_extend, Option.or_self]

/-! ### Edits -/

/-- What can be done to a definition. -/
inductive Edit where
  /-- Sets one property. A definition is a value, so that to insert a property into it and to make
  a definition with this property are the same. -/
  | insert (property : String) (value : StyleValue)
  /-- Sets properties one after the other; some of them may be the same. -/
  | insertAll (entries : List (String × StyleValue))
  /-- Sets all properties of another definition. -/
  | extend (other : Definition)

/-- The definition after an edit. -/
def Edit.apply (d : Definition) : Edit → Definition
  | .insert property value => d.insert property value
  | .insertAll entries => d.insertAll entries
  | .extend other => d.extend other

/-- The properties that an edit sets with their values, in order. -/
def Edit.entries : Edit → List (String × StyleValue)
  | .insert property value => [(property, value)]
  | .insertAll entries => entries
  | .extend other => other.entries

/-- The definition after edits. -/
def edited (d : Definition) (edits : List Edit) : Definition :=
  edits.foldl Edit.apply d

/-- Each kind of edit puts its entries into the definition, one after another. -/
theorem entries_apply (d : Definition) (edit : Edit) :
    (edit.apply d).entries = Keyed.putAll d.entries edit.entries := by
  cases edit <;> rfl

/-- Edits put their entries one after the other. -/
theorem entries_edited (d : Definition) (edits : List Edit) :
    (d.edited edits).entries = Keyed.putAll d.entries (edits.flatMap Edit.entries) := by
  induction edits generalizing d with
  | nil => rfl
  | cons edit edits ih =>
    rw [List.flatMap_cons, Keyed.putAll_append, ← entries_apply]
    exact ih (edit.apply d)

/-- After a run of edits the keys stand in the order in which they were first written. -/
theorem keys_edited (d : Definition) (edits : List Edit) :
    Keyed.InFirstOrder (Keyed.keys (d.edited edits).entries)
      (Keyed.keys (d.entries ++ edits.flatMap Edit.entries)) := by
  rw [entries_edited, Keyed.keys_append]
  exact (Keyed.inFirstOrder_of_nodup d.nodup_keys).putAll _

/-- After a run of edits a key has the value written for it last. -/
theorem get?_edited (d : Definition) (edits : List Edit) (k : String) :
    (d.edited edits).get? k =
      (Keyed.valuesUnder k (d.entries ++ edits.flatMap Edit.entries)).getLast? := by
  show Keyed.get? k (d.edited edits).entries = _
  rw [entries_edited, Keyed.get?_putAll, Keyed.valuesUnder_append, List.getLast?_append,
    Keyed.valuesUnder_of_nodup d.nodup_keys]
  cases Keyed.get? k d.entries <;> rfl

/-- After any edits of any definition, its properties are distinct and stand in the order in which
they were first set, and each has the value that it was given last. Extension is associative, the
empty definition is neutral on both sides, and a definition that is extended by itself or set up
from its own entries is the same. -/
theorem edited_orderedOverride :
    (∀ (d : Definition) (edits : List Edit),
      let written := d.entries ++ edits.flatMap Edit.entries
      (Keyed.keys (d.edited edits).entries).Nodup ∧
      Keyed.InFirstOrder (Keyed.keys (d.edited edits).entries) (Keyed.keys written) ∧
      ∀ k, (d.edited edits).get? k = (Keyed.valuesUnder k written).getLast?) ∧
    (∀ d e f : Definition, (d.extend e).extend f = d.extend (e.extend f)) ∧
    ∀ d : Definition, d.extend empty = d ∧ empty.extend d = d ∧ d.extend d = d ∧
      ofEntries d.entries = d := by
  refine ⟨?_, extend_assoc, ?_⟩
  · intro d edits written
    exact ⟨(d.edited edits).nodup_keys, keys_edited d edits, get?_edited d edits⟩
  · intro d
    exact ⟨extend_empty d, empty_extend d, extend_self d,
      ext_entries (entries_ofEntries d.nodup_keys)⟩

end AtomicCss.Definition
