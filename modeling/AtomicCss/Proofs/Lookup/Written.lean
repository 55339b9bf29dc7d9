import AtomicCss.Json.Basic
import AtomicCss.Proofs.Json.Reader
import AtomicCss.Proofs.Keyed
import AtomicCss.Proofs.Lookup

/-!
# Tables as they are written

Two ways of filling a table that leave the same references give the same table, since the entries
are sorted. For the same reason the entries of a property stand together: dropping the properties
that repeat the one before leaves each of them once. So the written object has each key once, and it
is read as one member for each property.

* `LookupTable.eq_of_get?_eq`: a sorted table is determined by what is found in it.
* `LookupTable.pairwise_properties`, `LookupTable.mem_properties`: the properties of a table.
* `Json.Field`: a member of a written object with the value that it is read as;
  `Json.Field.ofText?_writeObject` reads the object.
* `LookupTable.members`: what a table is read as.
* `LookupTable.insertAll_sortedMap`: all that is to be said of a table that was filled.
-/

namespace AtomicCss

/-! ### Tables with the same references -/

namespace LookupTable

variable {s t : LookupTable} {entries : List (LookupKey × StyleRef)}

theorem Sorted.nodup (h : Sorted entries) : entries.Nodup := by
  refine List.Pairwise.imp ?_ h
  rintro a _ hlt rfl
  exact LookupKey.lt_irrefl _ hlt

/-- Of two tables with the same name, in which the same is found, there is only one. -/
theorem eq_of_get?_eq (hs : Sorted s.entries) (ht : Sorted t.entries) (hname : s.name = t.name)
    (h : ∀ key, s.get? key = t.get? key) : s = t := by
  have hperm : s.entries.Perm t.entries := by
    rw [List.perm_ext_iff_of_nodup hs.nodup ht.nodup]
    rintro ⟨key, ref⟩
    rw [mem_entries_iff hs, mem_entries_iff ht, h key]
  have hentries : s.entries = t.entries :=
    hperm.eq_of_pairwise
      (fun _ _ _ _ hlt hgt => absurd (LookupKey.lt_trans hlt hgt) (LookupKey.lt_irrefl _)) hs ht
  cases s
  cases t
  simp_all

/-! ### Properties -/

theorem mem_dropRepeats {p : String} {l : List String} : p ∈ dropRepeats l ↔ p ∈ l := by
  fun_induction dropRepeats l with
  | case1 => rfl
  | case2 s => rfl
  | case3 s rest ih => rw [ih]; simp
  | case4 s t rest hne ih => rw [List.mem_cons, ih, List.mem_cons (l := t :: rest)]

/-- Where texts never fall, only the ones that repeat the one before stand twice. -/
theorem pairwise_dropRepeats {l : List String} (h : l.Pairwise (· ≤ ·)) :
    (dropRepeats l).Pairwise (· < ·) := by
  fun_induction dropRepeats l with
  | case1 => exact .nil
  | case2 s => exact List.pairwise_singleton _ _
  | case3 s rest ih => exact ih (List.pairwise_cons.1 h).2
  | case4 s t rest hne ih =>
    obtain ⟨hs, hrest⟩ := List.pairwise_cons.1 h
    refine List.pairwise_cons.2 ⟨fun u hu => ?_, ih hrest⟩
    -- The next text is above this one, and no later text falls below it.
    have hlt : s < t := Std.lt_of_le_of_ne (hs t List.mem_cons_self) hne
    rcases List.mem_cons.1 (mem_dropRepeats.1 hu) with rfl | hu
    · exact hlt
    · exact Std.lt_of_lt_of_le hlt ((List.pairwise_cons.1 hrest).1 u hu)

/-- The properties of a sorted table rise. -/
theorem pairwise_properties (h : Sorted t.entries) : t.properties.Pairwise (· < ·) := by
  refine pairwise_dropRepeats (List.pairwise_map.2 (h.imp ?_))
  rintro a b (hlt | ⟨heq, -⟩)
  · exact Std.le_of_lt hlt
  · exact heq ▸ Std.le_refl _

theorem mem_properties {p : String} :
    p ∈ t.properties ↔ ∃ entry ∈ t.entries, entry.1.property = p := by
  rw [properties, mem_dropRepeats, List.mem_map]

end LookupTable

/-! ### Written objects as values -/

namespace Json

theorem denotes_true : Denotes "true" (.bool true) :=
  .of_scalar rfl rfl rfl (by decide) (by decide) fun _ _ => rfl

/-- A member of a written object, with the value that it is read as. -/
structure Field (depth : Nat) where
  /-- The key. -/
  key : String
  /-- The written value. -/
  text : String
  /-- The document of the value. -/
  document : Document
  /-- The value. -/
  value : Json
  /-- The text is read as the document. -/
  denotes : Denotes text document
  /-- The document means the value. -/
  value_eq : ofDocument? depth document = some value

/-- A written object with distinct keys is read as the values of its members. -/
theorem Field.ofText?_writeObject {depth : Nat} (fields : List (Field depth))
    (hkeys : (fields.map Field.key).Nodup) :
    (Document.ofText? (writeObject (fields.map fun f => (f.key, f.text)))).bind
        (ofDocument? (depth + 1)) =
      some (.object (fields.map fun f => (f.key, f.value))) := by
  have hdenotes : Denotes (writeObject (fields.map fun f => (f.key, f.text)))
      (.fields (fields.map fun f => (f.key, f.document))) := by
    have h := denotes_writeObject (fields.map fun f => ⟨f.key, f.text, f.document⟩) (by
      intro m hm
      obtain ⟨f, -, rfl⟩ := List.mem_map.1 hm
      exact f.denotes)
    rwa [List.map_map, List.map_map] at h
  have hmembers : (fields.map fun f => (pieces f.key, f.document)).mapM (fun m => do
      let key ← textOf? m.1
      let value ← ofDocument? depth m.2
      return (key, value)) = some (fields.map fun f => (f.key, f.value)) := by
    clear hkeys hdenotes
    induction fields with
    | nil => rfl
    | cons f fields ih =>
      rw [List.map_cons, List.mapM_cons, ih]
      simp [textOf?_pieces, f.value_eq]
  -- A key that comes twice would lose its first value.
  have hput : Keyed.putAll [] (fields.map fun f => (f.key, f.value)) =
      fields.map fun f => (f.key, f.value) := by
    refine Keyed.putAll_of_nodup ?_
    rw [List.nil_append, Keyed.keys, List.map_map]
    exact hkeys
  rw [hdenotes.ofText?, Option.bind_some, Document.fields, List.map_map]
  show ofDocument? (depth + 1) (.object (fields.map fun f => (pieces f.key, f.document))) = _
  rw [ofDocument?, hmembers]
  show some (Json.object (Keyed.putAll [] _)) = _
  rw [hput]

end Json

/-! ### What a table is read as -/

namespace LookupTable

variable {t : LookupTable} {key : LookupKey} {ref : StyleRef}

/-- What the value of a property is read as: all its names with spaces between them, or null. -/
def value (t : LookupTable) (property : String) : Json :=
  let names := (t.entries.filter (·.1.property = property)).filterMap (·.2.name?)
  if names = [] then .null else .string (String.intercalate " " names)

/-- What a table is read as: the marker if there is a class, and all names of each property. -/
def members (t : LookupTable) : List (String × Json) :=
  (if ∃ entry ∈ t.entries, entry.2.isClass = true then [(markerKey, .bool true)] else []) ++
    t.properties.map fun property => (property, t.value property)

/-- The marker as a member of an object. -/
def markerField (depth : Nat) : Json.Field depth where
  key := markerKey
  text := "true"
  document := .bool true
  value := .bool true
  denotes := Json.denotes_true
  value_eq := by rw [Json.ofDocument?]

/-- A property without class names is written as `null`, and any other as their row. -/
theorem value_eq (t : LookupTable) (property : String) :
    t.value property =
      if t.namesOf property = [] then .null
      else .string (String.intercalate " " (t.namesOf property)) :=
  rfl

theorem valueText_eq (t : LookupTable) (property : String) :
    t.valueText property =
      if t.namesOf property = [] then "null"
      else Json.quote (String.intercalate " " (t.namesOf property)) := by
  rw [valueText, classList?]
  cases t.namesOf property with
  | nil => rfl
  | cons name names => rfl

/-- A property as a member of an object. -/
def propertyField (depth : Nat) (t : LookupTable) (property : String) : Json.Field depth where
  key := property
  text := t.valueText property
  document :=
    if t.namesOf property = [] then .null
    else .quoted (String.intercalate " " (t.namesOf property))
  value := t.value property
  denotes := by
    rw [valueText_eq]
    split
    · exact Json.denotes_null
    · exact Json.denotes_quote _
  value_eq := by
    rw [value_eq]
    split
    · rw [Json.ofDocument?]
    · rw [Json.Document.quoted, Json.ofDocument?, Json.textOf?_pieces]
      rfl

/-- The members of a written table. -/
def fields (depth : Nat) (t : LookupTable) : List (Json.Field depth) :=
  (if ∃ entry ∈ t.entries, entry.2.isClass = true then [markerField depth] else []) ++
    t.properties.map (t.propertyField depth)

/-- The keys of a written table differ, unless a property has the name of the marker. -/
theorem nodup_fields (depth : Nat) (h : Sorted t.entries) (hmarker : markerKey ∉ t.properties) :
    ((t.fields depth).map Json.Field.key).Nodup := by
  have hkeys : (t.properties.map (t.propertyField depth)).map Json.Field.key = t.properties := by
    rw [List.map_map]
    exact List.map_id _
  have hproperties : t.properties.Nodup := by
    refine List.Pairwise.imp ?_ (pairwise_properties h)
    rintro p _ hlt rfl
    exact String.lt_irrefl _ hlt
  rw [fields, List.map_append, hkeys]
  split
  · exact List.nodup_cons.2 ⟨hmarker, hproperties⟩
  · exact hproperties

/-- A table is written as the object of its members. -/
theorem text_eq (depth : Nat) (h : Sorted t.entries) (hmarker : markerKey ∉ t.properties) :
    t.text = Json.writeObject ((t.fields depth).map fun f => (f.key, f.text)) := by
  have hfields : (t.fields depth).map (fun f => (f.key, f.text)) =
      t.marker ++ t.properties.map fun property => (property, t.valueText property) := by
    rw [fields, List.map_append, List.map_map, marker]
    simp only [List.any_eq_true]
    split <;> rfl
  have hkeys := nodup_fields depth h hmarker
  rw [text, Keyed.putAll_of_nodup, hfields]
  rw [← hfields, Keyed.keys, List.map_map]
  exact hkeys

/-- A sorted table without the marker among its properties is read as its members. -/
theorem ofText?_text (depth : Nat) (h : Sorted t.entries) (hmarker : markerKey ∉ t.properties) :
    (Json.Document.ofText? t.text).bind (Json.ofDocument? (depth + 1)) =
      some (.object t.members) := by
  rw [text_eq depth h hmarker, Json.Field.ofText?_writeObject _ (nodup_fields depth h hmarker),
    fields, members, List.map_append, List.map_map]
  split <;> rfl

/-! ### Tables that were filled -/

theorem name_insertAll (t : LookupTable) (inserts : List (LookupKey × StyleRef)) :
    (t.insertAll inserts).name = t.name := by
  induction inserts generalizing t with
  | nil => rfl
  | cons entry inserts ih => exact ih (t.insert entry.1 entry.2)

/-- A table that is built up by insertions is in order. -/
theorem sorted_insertAll_empty (name : String) (inserts : List (LookupKey × StyleRef)) :
    Sorted ((empty name).insertAll inserts).entries :=
  @sorted_insertAll (empty name) List.Pairwise.nil inserts

/-- Every property that was inserted has an entry. -/
theorem mem_properties_insertAll {name p : String} {inserts : List (LookupKey × StyleRef)} :
    p ∈ ((empty name).insertAll inserts).properties ↔
      ∃ entry ∈ inserts, entry.1.property = p := by
  have hsorted := sorted_insertAll_empty name inserts
  rw [mem_properties]
  constructor
  · rintro ⟨⟨key, ref⟩, hentry, rfl⟩
    obtain ⟨before, after, rfl, -⟩ := get?_insertAll_empty.1 ((mem_entries_iff hsorted).1 hentry)
    exact ⟨(key, ref), by simp, rfl⟩
  · rintro ⟨entry, hentry, rfl⟩
    cases hfound : ((empty name).insertAll inserts).get? entry.1 with
    | none => exact absurd rfl (get?_insertAll_empty_eq_none.1 hfound entry hentry)
    | some ref => exact ⟨(entry.1, ref), (mem_entries_iff hsorted).2 hfound, rfl⟩

/-- The entries of a table that was filled rise by property and then by conditions, and they are
what was inserted last under their keys, which is also what is found. Nothing else of the insertions
counts for the table. Its properties are those that were inserted, each once and in order, and it is
read as an object with a member for each of them: all its names, or null. A marker comes first
exactly if there is a class. -/
theorem insertAll_sortedMap (name : String) (inserts : List (LookupKey × StyleRef)) :
    let t := (empty name).insertAll inserts
    t.entries.Pairwise (fun a b => a.1.property < b.1.property ∨
      (a.1.property = b.1.property ∧ a.1.conditions < b.1.conditions)) ∧
    (∀ key ref, ((key, ref) ∈ t.entries ↔ LastUnder inserts key ref) ∧
      (t.get? key = some ref ↔ LastUnder inserts key ref)) ∧
    (∀ key, t.get? key = none ↔ ∀ entry ∈ inserts, entry.1 ≠ key) ∧
    (∀ others, (∀ key ref, LastUnder others key ref ↔ LastUnder inserts key ref) →
      (empty name).insertAll others = t) ∧
    t.properties.Pairwise (· < ·) ∧
    (∀ p, p ∈ t.properties ↔ ∃ entry ∈ inserts, entry.1.property = p) ∧
    (markerKey ∉ t.properties →
      (Json.Document.ofText? t.text).bind (Json.ofDocument? Json.depthLimit) =
        some (.object t.members)) := by
  intro t
  have hsorted := sorted_insertAll_empty name
  refine ⟨hsorted inserts, fun key ref => ⟨?_, get?_insertAll_empty⟩,
    fun key => get?_insertAll_empty_eq_none, fun others hothers => ?_,
    pairwise_properties (hsorted inserts), fun p => mem_properties_insertAll,
    ofText?_text (Json.depthLimit - 1) (hsorted inserts)⟩
  · rw [mem_entries_iff (hsorted inserts), get?_insertAll_empty]
  · -- Sorted tables are known from what is found in them.
    refine eq_of_get?_eq (hsorted others) (hsorted inserts) ?_ fun key => Option.ext fun ref => ?_
    · rw [name_insertAll, name_insertAll]
    · rw [get?_insertAll_empty, get?_insertAll_empty]
      exact hothers key ref

/-- Four insertions, the last one over the second: what is left is a class, and a name under a
condition for a property that is unset without it. -/
theorem insertAll_sortedMap_hover :
    let inserts : List (LookupKey × StyleRef) :=
      [(.plain "b", .className "x"), (.plain "a", .className "y"),
        (⟨"a", [":hover"]⟩, .customProperty "v"), (.plain "a", .unset)]
    let others : List (LookupKey × StyleRef) :=
      [(⟨"a", [":hover"]⟩, .customProperty "v"), (.plain "a", .unset), (.plain "b", .className "x")]
    let t := (empty "styles").insertAll inserts
    (∀ key ref, LastUnder others key ref ↔ LastUnder inserts key ref) ∧
      (empty "styles").insertAll others = t ∧
      markerKey ∉ t.properties ∧
      t.text = "\x7b\"$$css\":true,\"a\":\"v\",\"b\":\"x\"\x7d" ∧
      (Json.Document.ofText? t.text).bind (Json.ofDocument? Json.depthLimit) =
        some (.object [("$$css", .bool true), ("a", .string "v"), ("b", .string "x")]) := by
  intro inserts others t
  obtain ⟨-, -, -, hothers, -, -, hread⟩ := insertAll_sortedMap "styles" inserts
  have hlast : ∀ key ref, LastUnder others key ref ↔ LastUnder inserts key ref := by
    intro key ref
    have hsame : (empty "styles").insertAll others = (empty "styles").insertAll inserts := by
      decide +kernel
    rw [← @get?_insertAll_empty key ref "styles", ← @get?_insertAll_empty key ref "styles", hsame]
  have hmarker : markerKey ∉ t.properties := by decide +kernel
  have hproperties : t.properties = ["a", "b"] := by decide +kernel
  refine ⟨hlast, hothers others hlast, hmarker, by decide +kernel, ?_⟩
  rw [hread hmarker, members, hproperties]
  rfl

end LookupTable

end AtomicCss
