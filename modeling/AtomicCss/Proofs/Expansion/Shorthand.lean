import AtomicCss.Proofs.Expansion.Attempts
import AtomicCss.Proofs.Keyed
import Mathlib.Data.List.Basic

/-!
# Shorthands and their longhands

A value of a shorthand says the same as values of its longhands. The parts of a text are dealt out
by the rule for the edges of a box, and each part is then treated as a value of its longhand, since
no longhand is a shorthand itself; but the parts succeed or fail together. A number or null goes to
every longhand.

* `Shorthand.assigned`: the part for each longhand. `Shorthand.distribute_eq_ok_iff`: when there are
  neither too few parts nor too many, these are the parts that are dealt out.
* `shorthandFor?_of_mem_table`, `shorthandFor?_longhand`: what the table tells.
* `expandParts_eq_ok_iff`: giving longhands their parts is expanding the longhands, all or none.
* `expand_shorthand`: a leaf of a shorthand against the leaves of its longhands.
-/

namespace AtomicCss

/-! ### Dealing out parts -/

namespace Shorthand

/-- The part for the longhand at a place: the one at this place, or else that of the opposite edge,
two places before, or else the first one. -/
def partAt (parts : List String) (i : Nat) : String :=
  parts.getD i (parts.getD (i - 2) (parts.headD ""))

/-- The longhands with their parts. -/
def assigned (s : Shorthand) (parts : List String) : List (String × String) :=
  s.longhands.mapIdx fun i longhand => (longhand, partAt parts i)

example : (box "top" "end" "bottom" "start").assigned ["1px", "2px", "3px"] =
    [("top", "1px"), ("end", "2px"), ("bottom", "3px"), ("start", "2px")] := by decide

/-- A single value is handed to every longhand. -/
theorem assigned_singleton (s : Shorthand) (part : String) :
    s.assigned [part] = s.longhands.map fun longhand => (longhand, part) := by
  cases s <;> rfl

/-- Values are handed to longhands of the shorthand only. -/
theorem mem_longhands_of_mem_assigned {s : Shorthand} {parts : List String} {a : String × String}
    (h : a ∈ s.assigned parts) : a.1 ∈ s.longhands := by
  obtain ⟨i, hi, rfl⟩ := List.mem_mapIdx.1 h
  exact List.getElem_mem hi

/-- Each number of parts that is allowed is dealt out by the same rule. -/
theorem zip_pick {s : Shorthand} {parts picked : List String} (h : s.pick parts = some picked) :
    1 ≤ parts.length ∧ parts.length ≤ s.longhands.length ∧
      s.longhands.zip picked = s.assigned parts := by
  unfold pick at h
  split at h <;> cases h <;> exact ⟨by simp, by simp [longhands], rfl⟩

/-- Values are refused only if there are none, or more than there are longhands. -/
theorem pick_eq_none {s : Shorthand} {parts : List String} (h : s.pick parts = none) :
    ¬ (1 ≤ parts.length ∧ parts.length ≤ s.longhands.length) := by
  cases s with
  | box =>
    rcases parts with _ | ⟨_, _ | ⟨_, _ | ⟨_, _ | ⟨_, _ | _⟩⟩⟩⟩ <;> simp_all [pick, longhands]
  | pair =>
    rcases parts with _ | ⟨_, _ | ⟨_, _ | _⟩⟩ <;> simp_all [pick, longhands]

/-- Parts are dealt out if there is one at least and not more than there are longhands. -/
theorem distribute_eq_ok_iff {s : Shorthand} {property : String} {parts : List String}
    {dealt : List (String × String)} :
    s.distribute property parts = .ok dealt ↔
      1 ≤ parts.length ∧ parts.length ≤ s.longhands.length ∧ dealt = s.assigned parts := by
  unfold distribute
  cases hpick : s.pick parts with
  | some picked =>
    obtain ⟨hpos, hle, hzip⟩ := zip_pick hpick
    simp [hpos, hle, hzip, eq_comm]
  | none =>
    refine iff_of_false ?_ fun h => pick_eq_none hpick ⟨h.1, h.2.1⟩
    simp only
    split <;> rintro ⟨⟩

end Shorthand

/-! ### The table -/

section Table

variable {property : String} {s : Shorthand}

/-- Every entry of the table is the one found under its name. -/
theorem shorthandFor?_of_mem_table (h : (property, s) ∈ Shorthand.table) :
    shorthandFor? property = some s := by
  have hall : ∀ entry ∈ Shorthand.table, shorthandFor? entry.1 = some entry.2 := by
    decide +kernel
  exact hall _ h

theorem mem_table_of_shorthandFor? (h : shorthandFor? property = some s) :
    (property, s) ∈ Shorthand.table := by
  unfold shorthandFor? at h
  split at h
  · cases h
  · exact Keyed.mem_of_get?_eq_some h

/-- No longhand is a shorthand. -/
theorem shorthandFor?_longhand (h : (property, s) ∈ Shorthand.table) {longhand : String}
    (hlonghand : longhand ∈ s.longhands) : shorthandFor? longhand = none := by
  have hall : ∀ entry ∈ Shorthand.table, ∀ longhand ∈ entry.2.longhands,
      shorthandFor? longhand = none := by decide +kernel
  exact hall _ h _ hlonghand

/-- A longhand is no shorthand, so that values are handed out once. -/
theorem shorthandFor?_of_mem_assigned (h : (property, s) ∈ Shorthand.table) {parts : List String}
    {a : String × String} (ha : a ∈ s.assigned parts) : shorthandFor? a.1 = none :=
  shorthandFor?_longhand h (Shorthand.mem_longhands_of_mem_assigned ha)

theorem targets_of_mem_table (h : (property, s) ∈ Shorthand.table) :
    targets property = s.longhands := by
  simp only [targets, shorthandFor?_of_mem_table h]

theorem targets_longhand (h : (property, s) ∈ Shorthand.table) {longhand : String}
    (hlonghand : longhand ∈ s.longhands) : targets longhand = [longhand] := by
  simp only [targets, shorthandFor?_longhand h hlonghand]

end Table

/-! ### Leaves -/

section Leaves

variable {options : Options} {property : String} {path : List Condition}

theorem Expansion.errors_leafEvent_eq_nil_iff {outcome : Except StyleError (List Declaration)} :
    errors ⟨[leafEvent property outcome]⟩ = [] ↔ ∃ ds, outcome = .ok ds := by
  cases outcome <;> simp [errors, leafEvent, Event.error?]

theorem Expansion.declarations_leafEvent_ok (property : String) (ds : List Declaration) :
    declarations ⟨[leafEvent property (.ok ds)]⟩ = ds :=
  List.flatMap_singleton _ _

/-- A text of a property that is no shorthand has the canonical form of the text. -/
theorem expand_text_plain (h : shorthandFor? property = none) (raw : String) :
    (Attempt.leaf property path (.text raw)).expand options =
      ⟨[leafEvent property (expandPlain options property path raw)]⟩ := by
  rw [Attempt.expand, walk, expandText]
  simp only [h]

/-- A text for a property that is no shorthand gives no error exactly if it can be normalized. -/
theorem errors_expand_text_plain (h : shorthandFor? property = none) {raw : String} :
    ((Attempt.leaf property path (.text raw)).expand options).errors = [] ↔
      ∃ value, normalValue options property raw = .ok value := by
  rw [expand_text_plain h, Expansion.errors_leafEvent_eq_nil_iff, expandPlain]
  simp only [Outcome.map_eq_ok]
  constructor
  · rintro ⟨_, value, hvalue, -⟩
    exact ⟨value, hvalue⟩
  · rintro ⟨value, hvalue⟩
    exact ⟨_, value, hvalue, rfl⟩

theorem declarations_expand_text_plain (h : shorthandFor? property = none) {raw value : String}
    (hvalue : normalValue options property raw = .ok value) :
    ((Attempt.leaf property path (.text raw)).expand options).declarations =
      [⟨property, [value], path⟩] := by
  rw [expand_text_plain h, expandPlain, hvalue]
  rfl

/-- Giving longhands their parts succeeds if every longhand can take its part, and gives what the
longhands give one by one. -/
theorem expandParts_eq_ok_iff {parts : List (String × String)} {ds : List Declaration}
    (hparts : ∀ a ∈ parts, shorthandFor? a.1 = none) :
    expandParts options path parts = .ok ds ↔
      (∀ a ∈ parts, ∃ value, normalValue options a.1 a.2 = .ok value) ∧
        ds = parts.flatMap fun a =>
          ((Attempt.leaf a.1 path (.text a.2)).expand options).declarations := by
  induction parts generalizing ds with
  | nil => simp [expandParts, eq_comm]
  | cons a parts ih =>
    obtain ⟨ha, hrest⟩ := List.forall_mem_cons.1 hparts
    rw [List.forall_mem_cons, List.flatMap_cons]
    constructor
    · intro h
      obtain ⟨value, hvalue, h⟩ := Outcome.bind_eq_ok.1 h
      obtain ⟨others, hothers, h⟩ := Outcome.bind_eq_ok.1 h
      cases h
      obtain ⟨hvalues, rfl⟩ := (ih hrest).1 hothers
      rw [declarations_expand_text_plain ha hvalue]
      exact ⟨⟨⟨value, hvalue⟩, hvalues⟩, rfl⟩
    · rintro ⟨⟨⟨value, hvalue⟩, hvalues⟩, rfl⟩
      rw [declarations_expand_text_plain ha hvalue]
      refine Outcome.bind_eq_ok.2 ⟨value, hvalue, ?_⟩
      exact Outcome.bind_eq_ok.2 ⟨_, (ih hrest).2 ⟨hvalues, rfl⟩, rfl⟩

/-- A text of a shorthand is given to the longhands in parts. -/
theorem expandText_shorthand_eq_ok_iff {s : Shorthand} (hs : (property, s) ∈ Shorthand.table)
    {raw : String} (hraw : isElliptic property raw = false) {ds : List Declaration} :
    expandText options property path raw = .ok ds ↔
      ∃ parts, splitValue raw = .ok parts ∧ 1 ≤ parts.length ∧
        parts.length ≤ s.longhands.length ∧
        expandParts options path (s.assigned parts) = .ok ds := by
  have hshorthand : expandText options property path raw =
      expandShorthand options s property path raw := by
    simp only [expandText, shorthandFor?_of_mem_table hs, hraw, Bool.false_eq_true, if_false]
  rw [hshorthand, expandShorthand]
  cases splitValue raw with
  | error failure => simp
  | ok parts =>
    simp only [Outcome.bind_eq_ok, Shorthand.distribute_eq_ok_iff, Except.ok.injEq]
    constructor
    · rintro ⟨_, ⟨hpos, hle, rfl⟩, hds⟩
      exact ⟨parts, rfl, hpos, hle, hds⟩
    · rintro ⟨_, rfl, hpos, hle, hds⟩
      exact ⟨_, ⟨hpos, hle, rfl⟩, hds⟩

/-- A text of a shorthand succeeds if it has parts that are neither too few nor too many, and if
each longhand can take its part. -/
theorem errors_expand_text_shorthand {s : Shorthand} (hs : (property, s) ∈ Shorthand.table)
    {raw : String} (hraw : isElliptic property raw = false) :
    ((Attempt.leaf property path (.text raw)).expand options).errors = [] ↔
      ∃ parts, splitValue raw = .ok parts ∧ 1 ≤ parts.length ∧
        parts.length ≤ s.longhands.length ∧
        ∀ a ∈ s.assigned parts, ∃ value, normalValue options a.1 a.2 = .ok value := by
  rw [Attempt.expand, walk, Expansion.errors_leafEvent_eq_nil_iff]
  simp only [expandText_shorthand_eq_ok_iff hs hraw,
    expandParts_eq_ok_iff fun _ => shorthandFor?_of_mem_assigned hs]
  constructor
  · rintro ⟨_, parts, hsplit, hpos, hle, hvalues, -⟩
    exact ⟨parts, hsplit, hpos, hle, hvalues⟩
  · rintro ⟨parts, hsplit, hpos, hle, hvalues⟩
    exact ⟨_, parts, hsplit, hpos, hle, hvalues, rfl⟩

/-- A text of a shorthand that succeeds declares what its parts declare on the longhands. -/
theorem declarations_expand_text_shorthand {s : Shorthand} (hs : (property, s) ∈ Shorthand.table)
    {raw : String} (hraw : isElliptic property raw = false)
    (h : ((Attempt.leaf property path (.text raw)).expand options).errors = [])
    {parts : List String} (hsplit : splitValue raw = .ok parts) :
    ((Attempt.leaf property path (.text raw)).expand options).declarations =
      (s.assigned parts).flatMap fun a =>
        ((Attempt.leaf a.1 path (.text a.2)).expand options).declarations := by
  rw [Attempt.expand, walk] at h ⊢
  obtain ⟨ds, hds⟩ := Expansion.errors_leafEvent_eq_nil_iff.1 h
  obtain ⟨parts', hsplit', -, -, hparts⟩ := (expandText_shorthand_eq_ok_iff hs hraw).1 hds
  obtain rfl : parts = parts' := Except.ok.inj (hsplit.symm.trans hsplit')
  obtain ⟨-, rfl⟩ :=
    (expandParts_eq_ok_iff fun _ => shorthandFor?_of_mem_assigned hs).1 hparts
  rw [hds, Expansion.declarations_leafEvent_ok]

/-- Null and numbers are given to each target on its own. -/
theorem declarations_expand_targets {value : StyleValue}
    (hvalue : value = .null ∨ ∃ x, value = .number x)
    (htargets : ∀ target ∈ targets property, targets target = [target]) :
    ((Attempt.leaf property path value).expand options).declarations =
      (targets property).flatMap fun target =>
        ((Attempt.leaf target path value).expand options).declarations := by
  have hone : ∀ (f : String → Declaration), (targets property).map f =
      (targets property).flatMap fun target => (targets target).map f := by
    intro f
    rw [List.map_eq_flatMap]
    exact List.flatMap_congr fun target htarget => by rw [htargets target htarget]; rfl
  rcases hvalue with rfl | ⟨x, rfl⟩ <;>
    simp only [Attempt.expand, walk, Expansion.declarations, List.flatMap_singleton] <;>
    exact hone _

end Leaves

/-- A value of a shorthand under a path is the same as values of its longhands under this path. A
text that is not elliptic succeeds if it has at least one part and at most as many as there are
longhands, four for a box and two for a pair, and each of its longhands can take the part assigned
to it; then it declares what the longhands declare with their parts, in order. Otherwise there is
one error and no declaration. A number, or null, declares what it does on each longhand. -/
theorem expand_shorthand (options : Options) {property : String} {s : Shorthand}
    (hs : (property, s) ∈ Shorthand.table) (path : List Condition) :
    let leaf (property : String) (value : StyleValue) : Expansion :=
      (Attempt.leaf property path value).expand options
    (∀ raw, isElliptic property raw = false →
      ((leaf property (.text raw)).errors = [] ↔
        ∃ parts, splitValue raw = .ok parts ∧ 1 ≤ parts.length ∧
          parts.length ≤ s.longhands.length ∧
          ∀ a ∈ s.assigned parts, ∃ value, normalValue options a.1 a.2 = .ok value) ∧
      ((leaf property (.text raw)).errors = [] → ∀ parts, splitValue raw = .ok parts →
        (∀ a ∈ s.assigned parts, (leaf a.1 (.text a.2)).errors = []) ∧
        (leaf property (.text raw)).declarations =
          (s.assigned parts).flatMap fun a => (leaf a.1 (.text a.2)).declarations) ∧
      ((leaf property (.text raw)).errors ≠ [] →
        ∃ error, (leaf property (.text raw)).errors = [error] ∧
          (leaf property (.text raw)).declarations = [])) ∧
    ∀ value, value = .null ∨ (∃ x, value = .number x) →
      (leaf property value).errors = [] ∧
      (∀ longhand ∈ s.longhands, (leaf longhand value).errors = []) ∧
      (leaf property value).declarations =
        s.longhands.flatMap fun longhand => (leaf longhand value).declarations := by
  intro leaf
  constructor
  · intro raw hraw
    -- A text is one attempt, which has one error or none.
    have hsingle : (leaf property (.text raw)).IsSingle :=
      (tallies_walk options property path (.text raw)).single _ (List.mem_singleton.2 rfl)
    have hiff := @errors_expand_text_shorthand options property path s hs raw hraw
    refine ⟨hiff, fun h parts hsplit => ⟨fun a ha => ?_, ?_⟩, fun h => ?_⟩
    · obtain ⟨parts', hsplit', -, -, hvalues⟩ := hiff.1 h
      obtain rfl : parts = parts' := Except.ok.inj (hsplit.symm.trans hsplit')
      exact (errors_expand_text_plain (shorthandFor?_of_mem_assigned hs ha)).2 (hvalues a ha)
    · exact declarations_expand_text_shorthand hs hraw h hsplit
    · exact hsingle.outcome.resolve_right fun hnone => h hnone.1
  · intro value hvalue
    -- A number and null are given to every longhand and never refused.
    have htargets : ∀ target ∈ targets property, targets target = [target] := by
      rw [targets_of_mem_table hs]
      exact fun longhand hlonghand => targets_longhand hs hlonghand
    have herrors : ∀ property, (leaf property value).errors = [] := by
      rcases hvalue with rfl | ⟨x, rfl⟩ <;> exact fun _ => rfl
    refine ⟨herrors property, fun longhand _ => herrors longhand, ?_⟩
    rw [← targets_of_mem_table hs]
    exact declarations_expand_targets hvalue htargets

/-- Three parts, of which the second goes to two edges. If the third cannot be taken then nothing is
declared, though the other two could be. -/
theorem expand_shorthand_margin :
    let margin : Shorthand := .box "margin-top" "margin-end" "margin-bottom" "margin-start"
    let leaf (property raw : String) : Expansion :=
      (Attempt.leaf property [.ofKey ":hover"] (.text raw)).expand {}
    ("margin", margin) ∈ Shorthand.table ∧
    isElliptic "margin" "0 1px 2%" = false ∧ splitValue "0 1px 2%" = .ok ["0", "1px", "2%"] ∧
    (leaf "margin" "0 1px 2%").declarations =
      (leaf "margin-top" "0").declarations ++ ((leaf "margin-end" "1px").declarations ++
        ((leaf "margin-bottom" "2%").declarations ++
          (leaf "margin-start" "1px").declarations)) ∧
    ∃ error, (leaf "margin" "0 1px f(").errors = [error] ∧
      (leaf "margin" "0 1px f(").declarations = [] := by
  intro margin leaf
  have hmem : ("margin", margin) ∈ Shorthand.table := by decide
  have hplain : ∀ raw, isElliptic "margin" raw = false := fun raw => by
    rw [isElliptic, show ("margin" == "border-radius") = false by decide, Bool.false_and]
  have hsplit : splitValue "0 1px 2%" = .ok ["0", "1px", "2%"] :=
    Outcome.eq_ok_of_toOption (by decide +kernel)
  obtain ⟨-, hdeclared, -⟩ := (expand_shorthand {} hmem [.ofKey ":hover"]).1 _ (hplain "0 1px 2%")
  obtain ⟨-, -, hfailed⟩ := (expand_shorthand {} hmem [.ofKey ":hover"]).1 _ (hplain "0 1px f(")
  have hassigned : margin.assigned ["0", "1px", "2%"] = [("margin-top", "0"),
      ("margin-end", "1px"), ("margin-bottom", "2%"), ("margin-start", "1px")] := by decide
  obtain ⟨-, hmargin⟩ := hdeclared (by decide +kernel) _ hsplit
  simp only [hassigned, List.flatMap_cons, List.flatMap_nil, List.append_nil] at hmargin
  exact ⟨hmem, hplain _, hsplit, hmargin, hfailed (by decide +kernel)⟩

end AtomicCss
