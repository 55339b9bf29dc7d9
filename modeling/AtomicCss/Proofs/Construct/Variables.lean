import AtomicCss.Construct.Variables
import AtomicCss.Proofs.Expansion.Leaves
import AtomicCss.Proofs.Lookup
import AtomicCss.Proofs.Naming
import Mathlib.Data.List.Nodup

/-!
# The variables of a group

Each leaf of a group gives a declaration of its custom property, or an error. A declaration under a
selector is an error too, so there are never more errors than leaves. What is left, but for the
declarations that unset their property, is put into rules by path: every declaration is written in
one place of one rule, and a variable can be referred to exactly if a declaration of it is written.

* `Groups`: what holds of the groups while declarations are added to them; `Groups.addToGroup` is
  one step and `groups_groupByPath` the whole run.
* `GroupedByPath`: declarations in groups of their paths, as they are written.
* `variableLeaves`, `variableDeclarations`: the leaves of a group and what is to be written.
* `Variables.length_errors`: the errors of a group are counted by its leaves.
* `WritesGroup`: the text of the rule for a group, letter by letter.
* `defineVars_groups`: when a group fails, what its rules hold, and which keys are in its table.
-/

namespace AtomicCss

/-! ### Groups of declarations -/

section Groups

variable {x : Declaration} {ds : List Declaration}
  {groups : List (List Condition × List Declaration)}

/-- The groups hold the given declarations, by their paths, and begin with the empty path. -/
structure Groups (groups : List (List Condition × List Declaration)) (ds : List Declaration) :
    Prop where
  /-- No path has two groups. -/
  nodup_paths : (groups.map Prod.fst).Nodup
  /-- The first group is that of the empty path. -/
  first_path : (groups.map Prod.fst).head? = some []
  /-- The declarations of a group have its path. -/
  conditions_eq : ∀ g ∈ groups, ∀ x ∈ g.2, x.conditions = g.1
  /-- Every declaration has one place in one of the groups. -/
  perm : (groups.flatMap Prod.snd).Perm ds

/-- A declaration opens a group at the end if its path has none. -/
theorem paths_addToGroup (x : Declaration) (groups : List (List Condition × List Declaration)) :
    (addToGroup x groups).map Prod.fst = groups.map Prod.fst ∨
      x.conditions ∉ groups.map Prod.fst ∧
        (addToGroup x groups).map Prod.fst = groups.map Prod.fst ++ [x.conditions] := by
  induction groups with
  | nil => exact .inr ⟨List.not_mem_nil, rfl⟩
  | cons g rest ih =>
    unfold addToGroup
    split
    · exact .inl rfl
    case isFalse hne =>
      rw [List.map_cons, List.map_cons]
      rcases ih with hsame | ⟨hnew, hpaths⟩
      · exact .inl (by rw [hsame])
      · refine .inr ⟨List.not_mem_cons_of_ne_of_not_mem (Ne.symm hne) hnew, ?_⟩
        rw [hpaths]
        rfl

/-- Adding a declaration to its group loses no declaration and adds no other. -/
theorem perm_addToGroup :
    ((addToGroup x groups).flatMap Prod.snd).Perm (groups.flatMap Prod.snd ++ [x]) := by
  induction groups with
  | nil => exact .refl _
  | cons g rest ih =>
    unfold addToGroup
    split
    · -- The new declaration stands behind those of its group and before those of later groups.
      rw [List.flatMap_cons, List.flatMap_cons, List.append_assoc, List.append_assoc]
      exact List.perm_append_comm.append_left g.2
    · rw [List.flatMap_cons, List.flatMap_cons, List.append_assoc]
      exact ih.append_left g.2

/-- A declaration joins the group of its own conditions. -/
theorem conditions_addToGroup (h : ∀ g ∈ groups, ∀ y ∈ g.2, y.conditions = g.1) :
    ∀ g ∈ addToGroup x groups, ∀ y ∈ g.2, y.conditions = g.1 := by
  induction groups with
  | nil => simp [addToGroup]
  | cons g rest ih =>
    obtain ⟨hg, hrest⟩ := List.forall_mem_cons.1 h
    unfold addToGroup
    split
    case isTrue hpath =>
      refine List.forall_mem_cons.2 ⟨fun y hy => ?_, hrest⟩
      rcases List.mem_append.1 hy with hy | hy
      · exact hg y hy
      · rw [List.mem_singleton.1 hy, hpath]
    case isFalse => exact List.forall_mem_cons.2 ⟨hg, ih hrest⟩

/-- The step of the grouping: the groups of a list, with one more declaration behind it. -/
theorem Groups.addToGroup (h : Groups groups ds) (x : Declaration) :
    Groups (addToGroup x groups) (ds ++ [x]) where
  nodup_paths := by
    rcases paths_addToGroup x groups with hsame | ⟨hnew, hpaths⟩
    · exact hsame ▸ h.nodup_paths
    · rw [hpaths, ← List.concat_eq_append, List.nodup_concat]
      exact ⟨hnew, h.nodup_paths⟩
  first_path := by
    rcases paths_addToGroup x groups with hsame | ⟨-, hpaths⟩
    · exact hsame ▸ h.first_path
    · rw [hpaths, List.head?_append, h.first_path]
      rfl
  conditions_eq := conditions_addToGroup h.conditions_eq
  perm := perm_addToGroup.trans (h.perm.append_right [x])

/-- Declarations that are added one after the other are in the groups of their paths. -/
theorem groups_groupByPath (ds : List Declaration) : Groups (groupByPath ds) ds := by
  have hrun : ∀ (es : List Declaration) {groups : List (List Condition × List Declaration)},
      Groups groups es →
        Groups (ds.foldl (fun groups d => addToGroup d groups) groups) (es ++ ds) := by
    induction ds with
    | nil =>
      intro es groups h
      rwa [List.append_nil]
    | cons d ds ih =>
      intro es groups h
      rw [List.append_cons]
      exact ih _ (h.addToGroup d)
  exact hrun [] ⟨by simp, rfl, by simp, by simp⟩

/-- Declarations as they are written: by path, in groups that are not empty. -/
structure GroupedByPath (ds : List Declaration)
    (groups : List (List Condition × List Declaration)) : Prop where
  /-- Every declaration is written in one place, and nothing else is written. -/
  perm : (groups.flatMap Prod.snd).Perm ds
  /-- A group has declarations, and they have its path. -/
  of_path : ∀ g ∈ groups, g.2 ≠ [] ∧ ∀ x ∈ g.2, x.conditions = g.1
  /-- Two declarations are written in one group exactly if they have one path. -/
  same_iff : ∀ (i j : Nat) (g h : List Condition × List Declaration),
    groups[i]? = some g → groups[j]? = some h → ∀ x ∈ g.2, ∀ y ∈ h.2,
      (x.conditions = y.conditions ↔ i = j)
  /-- The group of the empty path is the first one. -/
  first : ∀ g ∈ groups, g.1 = [] → groups.head? = some g

/-- Leaving out the empty groups leaves out no declaration. -/
theorem flatMap_filter_ne_nil (groups : List (List Condition × List Declaration)) :
    (groups.filter (!·.2.isEmpty)).flatMap Prod.snd = groups.flatMap Prod.snd := by
  induction groups with
  | nil => rfl
  | cons g rest ih =>
    rw [List.filter_cons, List.flatMap_cons, ← ih]
    split
    · rfl
    case isFalse hempty =>
      have hnil : g.2 = [] := by simpa using hempty
      rw [hnil, List.nil_append]

/-- Without the empty groups, the groups are as they are written. -/
theorem Groups.groupedByPath (h : Groups groups ds) :
    GroupedByPath ds (groups.filter (!·.2.isEmpty)) where
  perm := by
    rw [flatMap_filter_ne_nil]
    exact h.perm
  of_path := by
    intro g hg
    obtain ⟨hg, hne⟩ := List.mem_filter.1 hg
    exact ⟨by simpa using hne, h.conditions_eq g hg⟩
  same_iff := by
    have hnodup : ((groups.filter (!·.2.isEmpty)).map Prod.fst).Nodup :=
      (List.filter_sublist.map Prod.fst).nodup h.nodup_paths
    have hpath : ∀ (i : Nat) (g : List Condition × List Declaration),
        (groups.filter (!·.2.isEmpty))[i]? = some g → ∀ x ∈ g.2, x.conditions = g.1 :=
      fun _ _ hg => h.conditions_eq _ (List.mem_of_mem_filter (List.mem_of_getElem? hg))
    intro i j g k hg hk x hx y hy
    rw [hpath i g hg x hx, hpath j k hk y hy]
    have hi : i < ((groups.filter (!·.2.isEmpty)).map Prod.fst).length := by
      rw [List.length_map]
      exact (List.getElem?_eq_some_iff.1 hg).1
    rw [← List.getElem?_inj hi hnodup, List.getElem?_map, List.getElem?_map, hg, hk]
    simp
  first := by
    intro g hg hpath
    obtain ⟨hg, hne⟩ := List.mem_filter.1 hg
    have hfirst := h.first_path
    have hnodup := h.nodup_paths
    cases groups with
    | nil => cases hfirst
    | cons g₀ rest =>
      -- No other group has the empty path.
      have hg₀ : g = g₀ := by
        refine (List.mem_cons.1 hg).resolve_right fun hrest => ?_
        have hmem : g.1 ∈ rest.map Prod.fst := List.mem_map_of_mem hrest
        rw [hpath, ← Option.some.inj hfirst] at hmem
        exact (List.nodup_cons.1 hnodup).1 hmem
      rw [hg₀] at hne ⊢
      rw [List.filter_cons, if_pos hne]
      rfl

end Groups

/-! ### Leaves of a group -/

/-- The conditions on the way to what is attempted. -/
def Attempt.path : Attempt → List Condition
  | .leaf _ path _ => path
  | .rejected _ _ => []

/-- The leaves of the variables of a group, in authored order. -/
def variableLeaves (options : Options) (group : String) (d : Definition) : List Attempt :=
  d.entries.flatMap fun entry => entry.2.leaves (variableName options group entry.1) []

/-- The declarations of the variables of a group that are to be written: those under at-rules only
that do not unset their property. -/
def variableDeclarations (options : Options) (group : String) (d : Definition) :
    List Declaration :=
  (declarationsOf options (variableLeaves options group d)).filter fun x =>
    x.conditions.all Condition.isAtRule && !x.isUnset

/-- Whether a leaf fails or stands under a selector. -/
def Attempt.isRefused (options : Options) (a : Attempt) : Bool :=
  !(a.expand options).errors.isEmpty || !a.path.all Condition.isAtRule

/-- A value of a variable is refused if it cannot be normalized or stands under a selector. -/
theorem Attempt.isRefused_iff {options : Options} {a : Attempt} :
    a.isRefused options = true ↔
      (a.expand options).errors ≠ [] ∨ ∃ c ∈ a.path, c.isAtRule = false := by
  simp [isRefused]

section Leaves

variable {options : Options} {group key : String} {d : Definition} {attempts : List Attempt}

/-- The name of a variable is that of a custom property. -/
theorem isCustom_variableName (options : Options) (group key : String) :
    Property.isCustom (variableName options group key) = true := by
  rw [Property.isCustom, Text.startsWith, variableName, String.toList_append]
  exact List.isPrefixOf_iff_prefix.2 (List.prefix_append _ _)

theorem dashed_variableName (options : Options) (group key : String) :
    Property.dashed (variableName options group key) = variableName options group key :=
  if_pos (isCustom_variableName options group key)

/-- The name of a variable is never that of a shorthand. -/
theorem shorthandFor?_variableName (options : Options) (group key : String) :
    shorthandFor? (variableName options group key) = none :=
  if_pos (isCustom_variableName options group key)

/-- What a leaf of a variable gives: it is refused with one error, or it gives a declaration of its
custom property. -/
theorem refused_or_declared {value : StyleValue} {a : Attempt}
    (h : a ∈ value.leaves (variableName options group key) []) :
    let e := a.expand options
    e.errors.length + (e.declarations.filter (!·.underAtRules)).length =
        (if a.isRefused options then 1 else 0) ∧
      ∀ x ∈ e.declarations, x.property = variableName options group key := by
  obtain ⟨path, leaf, rfl, hleaf⟩ := StyleValue.exists_of_mem_leaves h
  intro e
  rcases Attempt.expand_plain (shorthandFor?_variableName options group key) hleaf with
    ⟨error, herrors, hnone⟩ | ⟨values, herrors, hone⟩
  · have hrefused : Attempt.isRefused options
        (.leaf (variableName options group key) path leaf) = true :=
      Attempt.isRefused_iff.2 (.inl (by rw [herrors]; exact List.cons_ne_nil _ _))
    refine ⟨?_, ?_⟩
    · rw [herrors, hnone, hrefused]
      rfl
    · rw [hnone]
      rintro x ⟨⟩
  · refine ⟨?_, ?_⟩
    · rw [herrors, hone, Attempt.isRefused, herrors, Attempt.path]
      cases hpath : path.all Condition.isAtRule <;> simp [Declaration.underAtRules, hpath]
    · rw [hone]
      intro x hx
      rw [List.mem_singleton.1 hx]

/-- The errors of leaves and the declarations under selectors are as many as the leaves that are
refused. -/
theorem length_refused (h : ∀ a ∈ attempts, ∃ key value,
      a ∈ StyleValue.leaves (variableName options group key) [] value) :
    (errorsOf options attempts).length +
        ((declarationsOf options attempts).filter (!·.underAtRules)).length =
      attempts.countP (Attempt.isRefused options) := by
  induction attempts with
  | nil => rfl
  | cons a attempts ih =>
    obtain ⟨⟨key, value, ha⟩, hrest⟩ := List.forall_mem_cons.1 h
    have hone := (refused_or_declared ha).1
    have hmany := ih hrest
    rw [errorsOf_cons, declarationsOf_cons, List.filter_append, List.length_append,
      List.length_append, List.countP_cons]
    omega

end Leaves

/-! ### Compiling a group -/

namespace Variables

variable {options : Options} {group : String} {d : Definition}

/-- A variable is the sum of its leaves. -/
theorem tallies_ofEntry (options : Options) (group : String) (entry : String × StyleValue) :
    (One.ofEntry options group entry).expansion.Tallies options
      (entry.2.leaves (variableName options group entry.1) []) := by
  have h := tallies_expandProperty options (variableName options group entry.1) entry.2
  rwa [dashed_variableName] at h

/-- One attempt is counted for each value written in the definition. -/
theorem attempted_ofDefinition (options : Options) (group : String) (d : Definition) :
    (ofDefinition options group d).attempted = (variableLeaves options group d).length := by
  rw [variableLeaves, List.length_flatMap]
  show List.foldr (· + ·) 0 _ = _
  rw [← List.sum_eq_foldr, List.map_map]
  congr 1
  exact List.map_congr_left fun entry _ => (tallies_ofEntry options group entry).attempted

/-- One error is reported for each refused value of an entry. -/
theorem length_errors_ofEntry (entry : String × StyleValue) :
    (One.ofEntry options group entry).errors.length =
      (entry.2.leaves (variableName options group entry.1) []).countP
        (Attempt.isRefused options) := by
  have h := tallies_ofEntry options group entry
  rw [One.errors, List.length_append, List.length_map, h.errors, h.declarations]
  exact length_refused fun a ha => ⟨entry.1, entry.2, ha⟩

/-- There is one error for each leaf that is refused. -/
theorem length_errors (options : Options) (group : String) (d : Definition) :
    (ofDefinition options group d).errors.length =
      (variableLeaves options group d).countP (Attempt.isRefused options) := by
  rw [variableLeaves, List.countP_flatMap]
  show (List.flatMap One.errors _).length = _
  rw [List.length_flatMap, List.map_map]
  congr 1
  exact List.map_congr_left fun entry _ => length_errors_ofEntry entry

/-- A group fails as a whole if there are leaves and all of them are refused. -/
theorem isSome_failure?_iff :
    (ofDefinition options group d).failure?.isSome = true ↔
      variableLeaves options group d ≠ [] ∧
        ∀ a ∈ variableLeaves options group d, a.isRefused options = true := by
  have hfailure : ∀ v : Variables,
      v.failure?.isSome = true ↔ 0 < v.attempted ∧ v.attempted ≤ v.errors.length := by
    intro v
    unfold failure?
    split
    case isTrue hfails =>
      have hfails : 0 < v.attempted ∧ v.attempted ≤ v.errors.length := by simpa using hfails
      refine iff_of_true ?_ hfails
      have hne : v.errors ≠ [] :=
        List.length_pos_iff.1 (Nat.lt_of_lt_of_le hfails.1 hfails.2)
      simpa using hne
    case isFalse hfine => exact iff_of_false (by simp) (by simpa using hfine)
  rw [hfailure, attempted_ofDefinition, length_errors, List.length_pos_iff, ← List.countP_eq_length]
  exact and_congr_right fun _ => ⟨fun h => Nat.le_antisymm List.countP_le_length h, Eq.ge⟩

/-- What is kept of the variables is what is to be written. -/
theorem kept_ofDefinition (options : Options) (group : String) (d : Definition) :
    (d.entries.map (One.ofEntry options group)).flatMap One.kept =
      variableDeclarations options group d := by
  rw [variableDeclarations, variableLeaves, declarationsOf, List.flatMap_assoc,
    List.filter_flatMap, List.flatMap_map]
  refine List.flatMap_congr fun entry _ => ?_
  rw [One.kept, (tallies_ofEntry options group entry).declarations]
  rfl

/-- What an entry keeps is declared for the variable of that entry. -/
theorem property_of_mem_kept {entry : String × StyleValue} {x : Declaration}
    (h : x ∈ (One.ofEntry options group entry).kept) :
    x.property = variableName options group entry.1 := by
  have hdeclared := (List.mem_filter.1 h).1
  rw [(tallies_ofEntry options group entry).declarations] at hdeclared
  obtain ⟨a, ha, hx⟩ := List.mem_flatMap.1 hdeclared
  exact (refused_or_declared ha).2 x hx

/-- A variable is kept exactly if a declaration of its custom property is to be written, if no two
variables have the same custom property. -/
theorem kept_ne_nil_iff {entry : String × StyleValue} (hentry : entry ∈ d.entries)
    (hnames : ((Keyed.keys d.entries).map (variableName options group)).Nodup) :
    (One.ofEntry options group entry).kept ≠ [] ↔
      ∃ x ∈ variableDeclarations options group d,
        x.property = variableName options group entry.1 := by
  rw [← kept_ofDefinition, List.flatMap_map]
  constructor
  · intro hne
    obtain ⟨x, hx⟩ := List.exists_mem_of_ne_nil _ hne
    exact ⟨x, List.mem_flatMap.2 ⟨entry, hentry, hx⟩, property_of_mem_kept hx⟩
  · rintro ⟨x, hx, hproperty⟩
    obtain ⟨other, hother, hx⟩ := List.mem_flatMap.1 hx
    rw [Keyed.keys, List.map_map] at hnames
    have hname := (property_of_mem_kept hx).symm.trans hproperty
    obtain rfl := List.inj_on_of_nodup_map hnames hother hentry hname
    exact List.ne_nil_of_mem hx

/-- The references under the keys of a group. -/
theorem get?_table {key : LookupKey} {ref : StyleRef} :
    ((LookupTable.empty group).insertAll ((ofDefinition options group d).names.map fun entry =>
        (.plain entry.1, .customProperty ("var(" ++ entry.2 ++ ")")))).get? key = some ref ↔
      ∃ entry ∈ d.entries, (One.ofEntry options group entry).kept ≠ [] ∧ key = .plain entry.1 ∧
        ref = .customProperty ("var(" ++ variableName options group entry.1 ++ ")") := by
  have hmem : ∀ {key ref}, (key, ref) ∈ (ofDefinition options group d).names.map
        (fun entry => (LookupKey.plain entry.1,
          StyleRef.customProperty ("var(" ++ entry.2 ++ ")"))) ↔
      ∃ entry ∈ d.entries, (One.ofEntry options group entry).kept ≠ [] ∧ key = .plain entry.1 ∧
        ref = .customProperty ("var(" ++ variableName options group entry.1 ++ ")") := by
    intro key ref
    simp only [ofDefinition, List.map_map, List.mem_map, List.mem_filter, Function.comp_apply]
    constructor
    · rintro ⟨_, ⟨⟨entry, hentry, rfl⟩, hkept⟩, heq⟩
      obtain ⟨rfl, rfl⟩ := Prod.mk.inj heq
      exact ⟨entry, hentry, by simpa using hkept, rfl, rfl⟩
    · rintro ⟨entry, hentry, hkept, rfl, rfl⟩
      exact ⟨_, ⟨⟨entry, hentry, rfl⟩, by simpa using hkept⟩, rfl⟩
  -- No key is inserted with two references, so the order of the insertions does not count.
  rw [LookupTable.get?_insertAll_empty_of_unique, hmem]
  rintro ⟨_, _⟩ hone ⟨_, _⟩ htwo heq
  obtain ⟨entry, -, -, rfl, rfl⟩ := hmem.1 hone
  obtain ⟨other, -, -, rfl, rfl⟩ := hmem.1 htwo
  have hkey : entry.1 = other.1 := congrArg LookupKey.property heq
  simp only [hkey]

/-- A key is in the table exactly if a declaration of its custom property is to be written, if no
two variables have the same custom property. -/
theorem get?_table_of_nodup
    (hnames : ((Keyed.keys d.entries).map (variableName options group)).Nodup)
    {key : LookupKey} {ref : StyleRef} :
    ((LookupTable.empty group).insertAll ((ofDefinition options group d).names.map fun entry =>
        (.plain entry.1, .customProperty ("var(" ++ entry.2 ++ ")")))).get? key = some ref ↔
      ∃ k ∈ Keyed.keys d.entries, key = .plain k ∧
        ref = .customProperty ("var(" ++ variableName options group k ++ ")") ∧
        ∃ x ∈ variableDeclarations options group d, x.property = variableName options group k := by
  rw [get?_table]
  constructor
  · rintro ⟨entry, hentry, hkept, rfl, rfl⟩
    exact ⟨entry.1, List.mem_map_of_mem hentry, rfl, rfl, (kept_ne_nil_iff hentry hnames).1 hkept⟩
  · rintro ⟨k, hk, rfl, rfl, hwritten⟩
    obtain ⟨entry, hentry, rfl⟩ := List.mem_map.1 hk
    exact ⟨entry, hentry, (kept_ne_nil_iff hentry hnames).2 hwritten, rfl, rfl⟩

end Variables

/-! ### Written groups -/

/-- The rule is the one for the given group. Its text has the at-rules of the path in order, in the
innermost of them a block for the root of the document, and in that block every declaration with
each of its values. -/
structure WritesGroup (options : Options) (g : List Condition × List Declaration) (r : Rule) :
    Prop where
  /-- The text of the rule. -/
  text : ∃ heads : List String, heads.Perm (g.1.map Condition.text) ∧ heads.Pairwise (· ≤ ·) ∧
    r.ltr = String.join (heads.map (· ++ "\x7b")) ++ ":root\x7b" ++
      String.intercalate ";" (g.2.flatMap fun x => x.values.map (x.property ++ ":" ++ ·)) ++
      "\x7d" ++ String.join (List.replicate g.1.length "\x7d")
  /-- There is no other text from right to left. -/
  rtl : r.rtl = none
  /-- The rule is named by its text. -/
  className : r.className = prefixedName options r.ltr
  /-- The rule has the priority of variables. -/
  priority : r.priority = .variableRules

/-- Nested blocks open one after the other, and they are all closed behind what they hold. -/
theorem foldr_block (heads : List String) (inner : String) :
    heads.foldr block inner = String.join (heads.map (· ++ "\x7b")) ++ inner ++
      String.join (List.replicate heads.length "\x7d") := by
  induction heads with
  | nil => simp
  | cons head heads ih =>
    rw [List.foldr_cons, ih, block, List.length_cons, List.replicate_succ', ← String.toList_inj]
    simp [String.toList_join, List.flatMap_map]

/-- The bodies of declarations in a row are their properties, each with each of its values. -/
theorem intercalate_bodies {ds : List Declaration} (h : ∀ x ∈ ds, x.isUnset = false) :
    String.intercalate ";" (ds.map Declaration.body) =
      String.intercalate ";" (ds.flatMap fun x => x.values.map (x.property ++ ":" ++ ·)) := by
  rw [List.flatMap_def, Text.intercalate_flatten, List.map_map]
  · rfl
  · intro texts htexts
    obtain ⟨x, hx, rfl⟩ := List.mem_map.1 htexts
    simpa [Declaration.isUnset] using h x hx

/-- The rule of a group is written out as `WritesGroup` spells it, if the group's path holds
at-rules only and none of its declarations is unset. -/
theorem writesGroup_groupRule (options : Options) {g : List Condition × List Declaration}
    (hpath : ∀ c ∈ g.1, c.isAtRule = true) (hset : ∀ x ∈ g.2, x.isUnset = false) :
    WritesGroup options g (Variables.groupRule options ":root" .variableRules g) where
  text := by
    have hheads : (atRuleTexts g.1).Perm (g.1.map Condition.text) := by
      rw [atRuleTexts, List.filter_eq_self.2 hpath]
      exact perm_sortTexts _
    have hroot : ":root" ++ "\x7b" = ":root\x7b" := by decide
    refine ⟨atRuleTexts g.1, hheads, pairwise_sortTexts _, ?_⟩
    rw [Variables.groupRule, wrapAtRules, foldr_block, block, intercalate_bodies hset,
      hheads.length_eq, List.length_map, hroot]
    simp only [String.append_assoc]
  rtl := rfl
  className := rfl
  priority := rfl

/-! ### Defining a group -/

section Define

variable {options : Options} {group : String} {d : Definition}

/-- A definition of variables fails exactly when its summary of attempts does. -/
theorem exists_defineVars_eq_error_iff :
    (∃ error, defineVars options group d = .error error) ↔
      (Variables.ofDefinition options group d).failure?.isSome = true := by
  simp only [defineVars, Variables.compiled]
  split
  case h_1 error hfailure => simp [hfailure]
  case h_2 hfailure => simp [hfailure]

/-- The table, the errors and the rules of a definition of variables that goes through. -/
theorem defineVars_eq_ok {c : Compiled} (h : defineVars options group d = .ok c) :
    c.table = (LookupTable.empty group).insertAll
        ((Variables.ofDefinition options group d).names.map fun entry =>
          (.plain entry.1, .customProperty ("var(" ++ entry.2 ++ ")"))) ∧
      c.errors.length = (Variables.ofDefinition options group d).errors.length ∧
      c.rules = ((groupByPath (variableDeclarations options group d)).filter (!·.2.isEmpty)).map
        (Variables.groupRule options ":root" .variableRules) := by
  simp only [defineVars, Variables.compiled] at h
  split at h
  · cases h
  · cases h
    rw [← Variables.kept_ofDefinition]
    exact ⟨rfl, List.length_map _, rfl⟩

/-- What is to be written is written by path, in one rule for each path. -/
theorem exists_groups_of_defineVars {c : Compiled} (h : defineVars options group d = .ok c) :
    ∃ groups, GroupedByPath (variableDeclarations options group d) groups ∧
      c.rules = groups.map (Variables.groupRule options ":root" .variableRules) :=
  ⟨_, (groups_groupByPath (variableDeclarations options group d)).groupedByPath,
    (defineVars_eq_ok h).2.2⟩

/-- Every group is written whole. -/
theorem GroupedByPath.forall₂_writesGroup {groups : List (List Condition × List Declaration)}
    (hgroups : GroupedByPath (variableDeclarations options group d) groups) :
    List.Forall₂ (WritesGroup options) groups
      (groups.map (Variables.groupRule options ":root" .variableRules)) := by
  rw [List.forall₂_map_right_iff, List.forall₂_same]
  intro g hg
  have hwritten : ∀ x ∈ g.2,
      x.conditions.all Condition.isAtRule = true ∧ x.isUnset = false := by
    intro x hx
    have hmem := hgroups.perm.mem_iff.1 (List.mem_flatMap.2 ⟨g, hg, hx⟩)
    simpa using (List.mem_filter.1 hmem).2
  -- A group has a declaration, and the path of the group is the path of that.
  obtain ⟨hne, hpath⟩ := hgroups.of_path g hg
  obtain ⟨x, hx⟩ := List.exists_mem_of_ne_nil _ hne
  refine writesGroup_groupRule options ?_ fun y hy => (hwritten y hy).2
  rw [← hpath x hx]
  exact List.all_eq_true.1 (hwritten x hx).1

end Define

/-- There are never more errors than leaves. A group fails exactly if it has leaves and each of them
fails or stands under a selector. Otherwise its rules hold the declarations under at-rules only that
do not unset their property: every one of them is written in one place, two of them in the same rule
exactly if they have the same path, those under no condition in the first rule, and nothing else is
written. The text of a rule is its at-rules around a block with all the declarations of its path. If
no two keys get the same custom property, then a key is in the table, with the reference
to its custom property, exactly if a declaration of that property is written. -/
theorem defineVars_groups (options : Options) (group : String) (d : Definition)
    (hnames : ((Keyed.keys d.entries).map (variableName options group)).Nodup) :
    let leaves := variableLeaves options group d
    let v := Variables.ofDefinition options group d
    (v.attempted = leaves.length ∧ v.errors.length ≤ leaves.length) ∧
    ((∃ error, defineVars options group d = .error error) ↔
      leaves ≠ [] ∧
        ∀ a ∈ leaves, (a.expand options).errors ≠ [] ∨ ∃ c ∈ a.path, c.isAtRule = false) ∧
    ∀ c, defineVars options group d = .ok c →
      c.errors.length = v.errors.length ∧
      ∃ groups, GroupedByPath (variableDeclarations options group d) groups ∧
        List.Forall₂ (WritesGroup options) groups c.rules ∧
        ∀ key ref, c.table.get? key = some ref ↔
          ∃ k ∈ Keyed.keys d.entries, key = .plain k ∧
            ref = .customProperty ("var(" ++ variableName options group k ++ ")") ∧
            ∃ x ∈ groups.flatMap Prod.snd, x.property = variableName options group k := by
  intro leaves v
  refine ⟨⟨Variables.attempted_ofDefinition options group d, ?_⟩, ?_, fun c hc => ?_⟩
  · rw [Variables.length_errors]
    exact List.countP_le_length
  · rw [exists_defineVars_eq_error_iff, Variables.isSome_failure?_iff]
    simp only [Attempt.isRefused_iff]
    rfl
  · -- The groups hold the kept declarations up to their order, which is all the table asks for.
    obtain ⟨htable, herrors, -⟩ := defineVars_eq_ok hc
    obtain ⟨groups, hgroups, hrules⟩ := exists_groups_of_defineVars hc
    refine ⟨herrors, groups, hgroups, hrules ▸ hgroups.forall₂_writesGroup, fun key ref => ?_⟩
    rw [htable, Variables.get?_table_of_nodup hnames]
    simp only [hgroups.perm.mem_iff]

/-- A group of which two variables have a value for print, one stands under a selector and one is
unset: the four declarations of the first two are written side by side in two rules, and only these
variables are in the table. -/
theorem defineVars_groups_print :
    let d : Definition := .ofEntries [
      ("a", .conditional [("default", .fallbacks [.text "red", .text "lime"]),
        ("@media print", .text "blue")]),
      ("b", .conditional [(":hover", .text "x")]), ("c", .null),
      ("e", .conditional [("default", .text "auto"), ("@media print", .text "none")])]
    let rules : List Rule :=
      [⟨"x1jc2pv9", ":root\x7b--xmroa5y:red;--xmroa5y:lime;--x1xpp80m:auto\x7d", none,
          .variableRules⟩,
        ⟨"x18a1adv", "@media print\x7b:root\x7b--xmroa5y:blue;--x1xpp80m:none\x7d\x7d", none,
          .variableRules⟩]
    let table : LookupTable := ⟨"t", [(.plain "a", .customProperty "var(--xmroa5y)"),
      (.plain "e", .customProperty "var(--x1xpp80m)")]⟩
    ((Keyed.keys d.entries).map (variableName {} "t")).Nodup ∧
    defineVars {} "t" d = .ok ⟨table, rules, [⟨"t", .unsupported "b" .selectorOnVariable⟩]⟩ ∧
    (¬ ∀ a ∈ variableLeaves {} "t" d,
      (a.expand {}).errors ≠ [] ∨ ∃ c ∈ a.path, c.isAtRule = false) ∧
    ∃ groups, GroupedByPath (variableDeclarations {} "t" d) groups ∧
      List.Forall₂ (WritesGroup {}) groups rules ∧
      groups.length = 2 ∧ (groups.flatMap Prod.snd).length = 4 ∧
      (∃ x ∈ groups.flatMap Prod.snd, x.property = variableName {} "t" "a") ∧
      ∀ x ∈ groups.flatMap Prod.snd, x.property ≠ variableName {} "t" "b" := by
  intro d rules table
  have hnames : ((Keyed.keys d.entries).map (variableName {} "t")).Nodup := by decide +kernel
  have hok : defineVars {} "t" d =
      .ok ⟨table, rules, [⟨"t", .unsupported "b" .selectorOnVariable⟩]⟩ :=
    Outcome.eq_ok_of_toOption (by decide +kernel)
  have hleaves : variableLeaves {} "t" d ≠ [] :=
    List.ne_nil_of_length_pos (by decide +kernel)
  have hcount : (variableDeclarations {} "t" d).length = 4 := by decide +kernel
  obtain ⟨-, hfails, hcompiled⟩ := defineVars_groups {} "t" d hnames
  obtain ⟨-, groups, hgroups, hrules, htable⟩ := hcompiled _ hok
  refine ⟨hnames, hok, fun hrefused => ?_, groups, hgroups, hrules, hrules.length_eq,
    hgroups.perm.length_eq.trans hcount, ?_, fun x hx hb => ?_⟩
  · obtain ⟨error, herror⟩ := hfails.2 ⟨hleaves, hrefused⟩
    rw [hok] at herror
    cases herror
  · obtain ⟨k, -, hkey, -, hx⟩ := (htable (.plain "a") (.customProperty "var(--xmroa5y)")).1 rfl
    obtain rfl : "a" = k := congrArg LookupKey.property hkey
    exact hx
  · have hfound := (htable (.plain "b") _).2
      ⟨"b", List.mem_cons_of_mem _ List.mem_cons_self, rfl, rfl, x, hx, hb⟩
    cases hfound

end AtomicCss
