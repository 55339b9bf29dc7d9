import AtomicCss.Proofs.Definition.Override
import AtomicCss.Proofs.Outcome

/-!
# Definitions from JSON values

A JSON object is a definition if there is no truth value in it and if its arrays, which are lists of
fallbacks, hold nothing but texts, numbers and null. What is read is then the same tree: objects as
maps from conditions to values, arrays as fallbacks, each key at its place. Otherwise the first
property whose value is at fault is reported, however deep in the value the fault is.

* `Json.Occurs`: a value is somewhere in another one.
* `Json.IsStyle`: which values are supported, said of all that occurs in a value at once;
  `Json.isStyle_array` and `Json.isStyle_object` say it level by level.
* `Json.KeysDistinct`: no object has a key twice. The values of documents are such:
  `Json.keysDistinct_of_ofDocument?`.
* `StyleValue.toJson`, `Definition.toJson`: the JSON values that are read as the given ones.
* `StyleValue.ofJson_decides`: reading one value, by induction on it.
* `Definition.ofJson_accepts`: which JSON values are read, what they are read as, and the property
  that is reported.
-/

namespace AtomicCss

open Outcome

/-! ### What occurs in a JSON value -/

namespace Json

/-- Induction over JSON values, with all items of an array and all members of an object. -/
@[elab_as_elim]
theorem induction {motive : Json → Prop} (null : motive .null) (bool : ∀ b, motive (.bool b))
    (number : ∀ x, motive (.number x)) (string : ∀ s, motive (.string s))
    (array : ∀ items, (∀ j ∈ items, motive j) → motive (.array items))
    (object : ∀ members, (∀ m ∈ members, motive m.2) → motive (.object members)) (j : Json) :
    motive j := by
  refine @Json.rec motive (fun items => ∀ j ∈ items, motive j)
    (fun members => ∀ m ∈ members, motive m.2) (fun m => motive m.2) null bool number string
    array object ?_ ?_ ?_ ?_ ?_ j
  · simp
  · intro j items hj hitems
    exact List.forall_mem_cons.2 ⟨hj, hitems⟩
  · simp
  · intro m members hm hmembers
    exact List.forall_mem_cons.2 ⟨hm, hmembers⟩
  · intro _ j hj
    exact hj

/-- A value occurs in itself, and where it occurs in an item of an array or in the value of a member
of an object it occurs in the array or the object. -/
inductive Occurs (x : Json) : Json → Prop where
  | self : Occurs x x
  | item {items : List Json} {j : Json} (mem : j ∈ items) (h : Occurs x j) :
    Occurs x (.array items)
  | member {members : List (String × Json)} {m : String × Json} (mem : m ∈ members)
    (h : Occurs x m.2) : Occurs x (.object members)

/-- What occurs in an array is the array or occurs in one of its items. -/
theorem occurs_array {x : Json} {items : List Json} :
    Occurs x (.array items) ↔ x = .array items ∨ ∃ j ∈ items, Occurs x j := by
  constructor
  · rintro (_ | ⟨hmem, h⟩)
    · exact .inl rfl
    · exact .inr ⟨_, hmem, h⟩
  · rintro (rfl | ⟨j, hmem, h⟩)
    · exact .self
    · exact .item hmem h

/-- What occurs in an object is the object or occurs in one of its members. -/
theorem occurs_object {x : Json} {members : List (String × Json)} :
    Occurs x (.object members) ↔ x = .object members ∨ ∃ m ∈ members, Occurs x m.2 := by
  constructor
  · rintro (_ | _ | ⟨hmem, h⟩)
    · exact .inl rfl
    · exact .inr ⟨_, hmem, h⟩
  · rintro (rfl | ⟨m, hmem, h⟩)
    · exact .self
    · exact .member hmem h

/-- The kinds of values that stand for themselves: texts, numbers and null. -/
def IsLiteral (j : Json) : Prop :=
  j.kind ≠ .array ∧ j.kind ≠ .object ∧ j.kind ≠ .boolean

/-- In a value without parts nothing else occurs. -/
theorem eq_of_occurs {x j : Json} (harray : j.kind ≠ .array) (hobject : j.kind ≠ .object)
    (h : Occurs x j) : x = j := by
  cases h with
  | self => rfl
  | item => exact absurd rfl harray
  | member => exact absurd rfl hobject

/-- No truth value occurs in the value, and no array in it holds an array, an object or a truth
value. -/
structure IsStyle (j : Json) : Prop where
  /-- There is no truth value. -/
  no_bool : ∀ b, ¬ Occurs (.bool b) j
  /-- The items of arrays are texts, numbers and null. -/
  flat : ∀ items, Occurs (.array items) j → ∀ item ∈ items,
    item.kind ≠ .array ∧ item.kind ≠ .object ∧ item.kind ≠ .boolean

theorem not_isStyle_bool (b : Bool) : ¬ IsStyle (.bool b) :=
  fun h => h.no_bool b .self

theorem IsLiteral.isStyle {j : Json} (h : j.IsLiteral) : j.IsStyle := by
  constructor
  · intro b hb
    exact h.2.2 (eq_of_occurs h.1 h.2.1 hb ▸ rfl)
  · intro items hitems
    exact absurd (eq_of_occurs h.1 h.2.1 hitems ▸ rfl) h.1

/-- An array is a style value if it is a list of fallback literals. -/
theorem isStyle_array {items : List Json} :
    IsStyle (.array items) ↔ ∀ item ∈ items, item.IsLiteral := by
  constructor
  · intro h
    exact h.flat items .self
  · intro h
    constructor
    · intro b hb
      rcases occurs_array.1 hb with hb | ⟨j, hj, hb⟩
      · cases hb
      · exact (h j hj).isStyle.no_bool b hb
    · intro inner hinner
      rcases occurs_array.1 hinner with hinner | ⟨j, hj, hinner⟩
      · cases hinner
        exact h
      · exact (h j hj).isStyle.flat inner hinner

/-- An object is a style value if all of its members are. -/
theorem isStyle_object {members : List (String × Json)} :
    IsStyle (.object members) ↔ ∀ m ∈ members, m.2.IsStyle := by
  constructor
  · intro h m hm
    exact ⟨fun b hb => h.no_bool b (.member hm hb), fun items hi => h.flat items (.member hm hi)⟩
  · intro h
    constructor
    · intro b hb
      rcases occurs_object.1 hb with hb | ⟨m, hm, hb⟩
      · cases hb
      · exact (h m hm).no_bool b hb
    · intro items hitems
      rcases occurs_object.1 hitems with hitems | ⟨m, hm, hitems⟩
      · cases hitems
      · exact (h m hm).flat items hitems

end Json

/-! ### The JSON value of a definition -/

namespace StyleValue

mutual

/-- The JSON value of the same shape: lists of fallbacks as arrays, conditional maps as objects. -/
def toJson : StyleValue → Json
  | .null => .null
  | .text raw => .string raw
  | .number x => .number x
  | .fallbacks items => .array (toItems items)
  | .conditional entries => .object (toMembers entries)

/-- The JSON values of values in a row. -/
def toItems : List StyleValue → List Json
  | [] => []
  | value :: rest => toJson value :: toItems rest

/-- Entries with the JSON values of their values. -/
def toMembers : List (String × StyleValue) → List (String × Json)
  | [] => []
  | (key, value) :: rest => (key, toJson value) :: toMembers rest

end

theorem toItems_eq_map (items : List StyleValue) : toItems items = items.map toJson := by
  induction items with
  | nil => rfl
  | cons value rest ih => rw [toItems, ih, List.map_cons]

/-- An entry with the JSON value of its value. -/
def toMember (entry : String × StyleValue) : String × Json :=
  (entry.1, entry.2.toJson)

theorem toMembers_eq_map (entries : List (String × StyleValue)) :
    toMembers entries = entries.map toMember := by
  induction entries with
  | nil => rfl
  | cons entry rest ih => rw [toMembers, ih, List.map_cons, toMember]

end StyleValue

/-- The JSON object of a definition. -/
def Definition.toJson (d : Definition) : Json :=
  .object (StyleValue.toMembers d.entries)

/-! ### Reading values -/

namespace StyleValue

/-- Errors that say that a value under the property is not supported. -/
def IsRefusal (property : String) (error : StyleError) : Prop :=
  ∃ found, error = .unsupported property found

/-- Reading a fallback succeeds on literals, with a value that is written back as read, and
otherwise names the property it stands under. -/
theorem fallbackOfJson_decides (property : String) (j : Json) :
    Decides (fallbackOfJson property j) j.IsLiteral (fun v => v.toJson = j)
      (IsRefusal property) := by
  have hliteral : ∀ k : Kind, k ≠ .array → k ≠ .object → k ≠ .boolean → j.kind = k →
      j.IsLiteral := by
    rintro k harray hobject hboolean rfl
    exact ⟨harray, hobject, hboolean⟩
  cases j with
  | null => exact .inl ⟨hliteral .null (by decide) (by decide) (by decide) rfl, .null, rfl, rfl⟩
  | bool b => exact .inr ⟨fun h => h.2.2 rfl, _, rfl, _, rfl⟩
  | number x =>
    exact .inl ⟨hliteral .number (by decide) (by decide) (by decide) rfl, .number x, rfl, rfl⟩
  | string s =>
    exact .inl ⟨hliteral .string (by decide) (by decide) (by decide) rfl, .text s, rfl, rfl⟩
  | array items => exact .inr ⟨fun h => h.1 rfl, _, rfl, _, rfl⟩
  | object members => exact .inr ⟨fun h => h.2.1 rfl, _, rfl, _, rfl⟩

/-- Reads a member of an object; `name` is the property that an error names. -/
def readMember (name : String × Json → String) (m : String × Json) :
    Except StyleError (String × StyleValue) :=
  (ofJson (name m) m.2).map fun value => (m.1, value)

/-- The members of a block are read one by one under the block's property. -/
theorem entriesOfJson_eq_mapM (property : String) (members : List (String × Json)) :
    entriesOfJson property members = members.mapM (readMember fun _ => property) := by
  induction members with
  | nil => rfl
  | cons m members ih =>
    rw [List.mapM_cons, entriesOfJson, ih, readMember]
    cases ofJson property m.2 <;> rfl

/-- The value is read if it is supported, and what is read has the same shape; otherwise the
property is reported. -/
def IsRead (j : Json) : Prop :=
  ∀ property, Decides (ofJson property j) j.IsStyle (fun v => v.toJson = j) (IsRefusal property)

/-- The members of an object are read if their values are supported; otherwise the name of the
first whose value is not supported is reported. -/
theorem decides_readMembers {members : List (String × Json)} (h : ∀ m ∈ members, IsRead m.2)
    (name : String × Json → String) :
    Decides (members.mapM (readMember name)) (∀ m ∈ members, m.2.IsStyle)
      (fun entries => entries.map toMember = members) fun error =>
        ∃ before m after, members = before ++ m :: after ∧ (∀ b ∈ before, b.2.IsStyle) ∧
          ¬ m.2.IsStyle ∧ IsRefusal (name m) error := by
  refine decides_mapM ?_
  intro m hm
  refine (h m hm (name m)).map ?_
  rintro value hvalue
  show (m.1, value.toJson) = m
  rw [hvalue]

/-- Reading decides whether a document is a style value; the induction is on the document. -/
theorem ofJson_decides (j : Json) : IsRead j := by
  induction j using Json.induction with
  | null | number | string =>
    intro property
    refine .inl ⟨Json.IsLiteral.isStyle ?_, _, rfl, rfl⟩
    refine ⟨?_, ?_, ?_⟩ <;> rintro ⟨⟩
  | bool b =>
    intro property
    exact .inr ⟨Json.not_isStyle_bool b, _, rfl, _, rfl⟩
  | array items =>
    intro property
    have hitems := decides_mapM fun item (_ : item ∈ items) => fallbackOfJson_decides property item
    refine (hitems.mono Json.isStyle_array.symm ?_).map ?_
    · rintro error ⟨_, _, _, _, _, _, herror⟩
      exact herror
    · intro values hvalues
      show Json.array (toItems values) = .array items
      rw [toItems_eq_map, hvalues]
  | object members ih =>
    intro property
    have hmembers := decides_readMembers ih fun _ => property
    rw [← entriesOfJson_eq_mapM] at hmembers
    refine (hmembers.mono Json.isStyle_object.symm ?_).map ?_
    · rintro error ⟨_, _, _, _, _, _, herror⟩
      exact herror
    · intro entries hentries
      show Json.object (toMembers entries) = .object members
      rw [toMembers_eq_map, hentries]

end StyleValue

/-! ### Distinct keys -/

namespace Json

/-- No object that occurs in the value has a key twice. -/
def KeysDistinct (j : Json) : Prop :=
  ∀ members, Occurs (.object members) j → (Keyed.keys members).Nodup

/-- A document with no members and no items has distinct keys. -/
theorem keysDistinct_of_kind {j : Json} (harray : j.kind ≠ .array) (hobject : j.kind ≠ .object) :
    j.KeysDistinct := by
  intro members h
  exact absurd (eq_of_occurs harray hobject h ▸ rfl) hobject

/-- An array has distinct keys if all of its items have. -/
theorem keysDistinct_array {items : List Json} (h : ∀ j ∈ items, j.KeysDistinct) :
    KeysDistinct (.array items) := by
  intro members hmembers
  rcases occurs_array.1 hmembers with hmembers | ⟨j, hj, hmembers⟩
  · cases hmembers
  · exact h j hj members hmembers

/-- An object has distinct keys if its own differ and those of each member do. -/
theorem keysDistinct_object {members : List (String × Json)} (hkeys : (Keyed.keys members).Nodup)
    (h : ∀ m ∈ members, m.2.KeysDistinct) : KeysDistinct (.object members) := by
  intro inner hinner
  rcases occurs_object.1 hinner with hinner | ⟨m, hm, hinner⟩
  · cases hinner
    exact hkeys
  · exact h m hm inner hinner

/-- A value with parts is read from the parts of a document. -/
theorem ofDocument?_cases {depth : Nat} {document : Document} {j : Json}
    (h : ofDocument? depth document = some j) :
    (j.kind ≠ .array ∧ j.kind ≠ .object) ∨
    ∃ inner, depth = inner + 1 ∧
      ((∃ items, j = .array items ∧ ∀ item ∈ items, ∃ part, ofDocument? inner part = some item) ∨
      ∃ members, j = .object (Keyed.putAll [] members) ∧
        ∀ m ∈ members, ∃ part, ofDocument? inner part = some m.2) := by
  cases document with
  | null | bool =>
    rw [ofDocument?] at h
    cases h
    exact .inl ⟨by rintro ⟨⟩, by rintro ⟨⟩⟩
  | number n =>
    rw [ofDocument?] at h
    obtain ⟨x, -, rfl⟩ := Option.map_eq_some_iff.1 h
    exact .inl ⟨by rintro ⟨⟩, by rintro ⟨⟩⟩
  | string pieces =>
    rw [ofDocument?] at h
    obtain ⟨s, -, rfl⟩ := Option.map_eq_some_iff.1 h
    exact .inl ⟨by rintro ⟨⟩, by rintro ⟨⟩⟩
  | array items =>
    cases depth with
    | zero => cases h
    | succ inner =>
      rw [ofDocument?] at h
      obtain ⟨values, hvalues, rfl⟩ := Option.map_eq_some_iff.1 h
      refine .inr ⟨inner, rfl, .inl ⟨values, rfl, fun item hitem => ?_⟩⟩
      obtain ⟨part, -, hpart⟩ := exists_of_mem_mapM_some hvalues hitem
      exact ⟨part, hpart⟩
  | object members =>
    cases depth with
    | zero => cases h
    | succ inner =>
      rw [ofDocument?] at h
      -- The members are put one after another, so that a later one replaces an earlier one.
      obtain ⟨entries, hentries, h⟩ := Option.bind_eq_some_iff.1 h
      cases h
      refine .inr ⟨inner, rfl, .inr ⟨entries, rfl, fun m hm => ?_⟩⟩
      obtain ⟨part, -, hpart⟩ := exists_of_mem_mapM_some hentries hm
      obtain ⟨key, -, hpart⟩ := Option.bind_eq_some_iff.1 hpart
      obtain ⟨value, hvalue, hpart⟩ := Option.bind_eq_some_iff.1 hpart
      cases hpart
      exact ⟨part.2, hvalue⟩

/-- The value of a document has no object with a key twice. -/
theorem keysDistinct_of_ofDocument? {depth : Nat} {document : Document} {j : Json}
    (h : ofDocument? depth document = some j) : j.KeysDistinct := by
  induction depth generalizing document j with
  | zero =>
    rcases ofDocument?_cases h with ⟨harray, hobject⟩ | ⟨inner, hdepth, -⟩
    · exact keysDistinct_of_kind harray hobject
    · omega
  | succ depth ih =>
    rcases ofDocument?_cases h with
      ⟨harray, hobject⟩ | ⟨inner, hdepth, ⟨items, rfl, hitems⟩ | ⟨members, rfl, hmembers⟩⟩
    · exact keysDistinct_of_kind harray hobject
    · obtain rfl : depth = inner := by omega
      refine keysDistinct_array fun item hitem => ?_
      obtain ⟨part, hpart⟩ := hitems item hitem
      exact ih hpart
    · obtain rfl : depth = inner := by omega
      refine keysDistinct_object (Keyed.nodup_putAll List.nodup_nil) fun m hm => ?_
      rcases Keyed.mem_putAll hm with hm | hm
      · cases hm
      · obtain ⟨part, hpart⟩ := hmembers m hm
        exact ih hpart

end Json

/-! ### Reading definitions -/

namespace Definition

/-- The entries of a definition are read one by one, each under its own key. -/
theorem entriesOfJson_eq_mapM (members : List (String × Json)) :
    entriesOfJson members = members.mapM (StyleValue.readMember Prod.fst) := by
  induction members with
  | nil => rfl
  | cons m members ih =>
    rw [List.mapM_cons, entriesOfJson, ih, StyleValue.readMember]
    cases StyleValue.ofJson m.1 m.2 <;> rfl

/-- An object is read if the values of its members are supported; its first member whose value is
not supported is reported otherwise. If its keys are distinct, it is read as it stands. -/
theorem ofJson_object_decides (members : List (String × Json)) :
    Decides (ofJson (.object members)) (∀ m ∈ members, m.2.IsStyle)
      (fun d => (Keyed.keys members).Nodup → d.toJson = .object members) fun error =>
        ∃ before m after, members = before ++ m :: after ∧ (∀ b ∈ before, b.2.IsStyle) ∧
          ¬ m.2.IsStyle ∧ StyleValue.IsRefusal m.1 error := by
  have hmembers := StyleValue.decides_readMembers
    (fun m (_ : m ∈ members) => StyleValue.ofJson_decides m.2) Prod.fst
  rw [← entriesOfJson_eq_mapM] at hmembers
  refine hmembers.map ?_
  intro entries hentries hdistinct
  have hkeys : Keyed.keys entries = Keyed.keys members := by
    rw [← hentries, Keyed.keys, Keyed.keys, List.map_map]
    rfl
  show Json.object (StyleValue.toMembers (ofEntries entries).entries) = .object members
  rw [entries_ofEntries (hkeys ▸ hdistinct), StyleValue.toMembers_eq_map, hentries]

/-- What is read from a value without repeated keys has its shape. -/
theorem toJson_of_ofJson {j : Json} {d : Definition} (h : ofJson j = .ok d)
    (hdistinct : j.KeysDistinct) : d.toJson = j := by
  cases j with
  | object members =>
    exact (ofJson_object_decides members).good_of_ok h (hdistinct members .self)
  | null | bool | number | string | array => cases h

/-- A JSON value is read as a definition if and only if it is an object, no truth value occurs in
it, and no array in it holds an array, an object or a truth value. What is read has the keys of the
value in their order and its nesting, if they are distinct, as they are in the value of every
document. What is reported otherwise is an unsupported value: the value
as a whole if it is no object, and else the first property whose value is not supported. -/
theorem ofJson_accepts (j : Json) :
    ((∃ d, ofJson j = .ok d) ↔ (∃ members, j = .object members) ∧ j.IsStyle) ∧
    (∀ d, ofJson j = .ok d → j.KeysDistinct → d.toJson = j) ∧
    (∀ depth document, Json.ofDocument? depth document = some j → j.KeysDistinct) ∧
    ∀ error, ofJson j = .error error →
      ∃ property found, error = .unsupported property found ∧
        (j.kind ≠ .object → property = wholeName ∧ found = .kind j.kind) ∧
        ∀ members, j = .object members →
          ∃ before value after, members = before ++ (property, value) :: after ∧
            (∀ m ∈ before, m.2.IsStyle) ∧ ¬ value.IsStyle := by
  cases j with
  | object members =>
    have hread := ofJson_object_decides members
    refine ⟨?_, fun d => toJson_of_ofJson, fun _ _ => Json.keysDistinct_of_ofDocument?, ?_⟩
    · rw [hread.succeeds_iff, ← Json.isStyle_object]
      exact ⟨fun h => ⟨⟨members, rfl⟩, h⟩, fun h => h.2⟩
    · intro error herror
      obtain ⟨before, m, after, hsplit, hbefore, hm, found, rfl⟩ := hread.bad_of_error herror
      refine ⟨m.1, found, rfl, fun h => absurd rfl h, ?_⟩
      rintro _ ⟨⟩
      exact ⟨before, m.2, after, hsplit, hbefore, hm⟩
  | null | bool | number | string | array =>
    -- A value that is no object is reported as a whole.
    refine ⟨⟨?_, ?_⟩, fun d => toJson_of_ofJson, fun _ _ => Json.keysDistinct_of_ofDocument?, ?_⟩
    · rintro ⟨d, ⟨⟩⟩
    · rintro ⟨⟨members, ⟨⟩⟩, -⟩
    · rintro error ⟨⟩
      refine ⟨wholeName, _, rfl, fun _ => ⟨rfl, rfl⟩, ?_⟩
      rintro members ⟨⟩

theorem ofJson_accepts_hover :
    let j : Json := .object [("color", .object [("default", .string "red"), (":hover", .null)]),
      ("position", .array [.string "sticky", .string "fixed"])]
    let k : Json := .object [("color", .string "red"),
      ("display", .object [("default", .array [.string "flex", .bool true])]), ("top", .bool true)]
    (∃ d, ofJson j = .ok d ∧ d.toJson = j) ∧ ¬ (∃ d, ofJson k = .ok d) ∧
      ∃ found, ofJson k = .error (.unsupported "display" found) := by
  intro j k
  have hj : j.KeysDistinct := by
    refine Json.keysDistinct_object (by decide) ?_
    rintro m (_ | ⟨_, _ | ⟨_, ⟨⟩⟩⟩)
    · refine Json.keysDistinct_object (by decide) ?_
      rintro m (_ | ⟨_, _ | ⟨_, ⟨⟩⟩⟩) <;>
        exact Json.keysDistinct_of_kind (by decide) (by decide)
    · refine Json.keysDistinct_array ?_
      rintro m (_ | ⟨_, _ | ⟨_, ⟨⟩⟩⟩) <;>
        exact Json.keysDistinct_of_kind (by decide) (by decide)
  have hk : ¬ k.IsStyle := by
    intro h
    have htop : (Json.bool true).Occurs k :=
      Json.occurs_object.2 (.inr ⟨("top", .bool true), by simp, .self⟩)
    exact h.no_bool true htop
  refine ⟨⟨_, rfl, (ofJson_accepts j).2.1 _ rfl hj⟩, ?_, .insideFallbacks .boolean, rfl⟩
  exact fun hread => hk ((ofJson_accepts k).1.1 hread).2

end Definition

end AtomicCss
