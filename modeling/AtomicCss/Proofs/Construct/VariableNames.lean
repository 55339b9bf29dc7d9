import AtomicCss.Proofs.Construct.Theme
import AtomicCss.Proofs.Construct.Variables
import AtomicCss.Proofs.Text

/-!
# Names of variables

A variable is named after its group and its key with a dot between them. Within a group different
keys have different texts. A dot in the name of a group or in a key is not told from the one between
them, so two groups can share a text: exactly if one of them goes on with a dot where the other one
ends, and its key is the rest of the other key.

* `Regrouped`: a key whose beginning has moved to the name of its group.
* `NamedAlike`: variables that are the same up to that, and `Collide`: texts that share a name.
* `variableText_eq_iff`: when two variables are named after one text.
* `variableName_eq_iff`: when two variables get one name.
* `defineVars_shared`: when two groups write declarations of one custom property.
-/

namespace AtomicCss

variable {options : Options} {group group₁ group₂ key key₁ key₂ : String} {d : Definition}

/-- The second variable is the first one with the beginning of its key, up to a dot, moved to the
name of its group. -/
def Regrouped (group₁ key₁ group₂ key₂ : String) : Prop :=
  ∃ moved, group₂ = group₁ ++ "." ++ moved ∧ key₁ = moved ++ "." ++ key₂

/-- The variables are the same, or one of them is the other one regrouped. -/
def NamedAlike (group₁ key₁ group₂ key₂ : String) : Prop :=
  (group₁ = group₂ ∧ key₁ = key₂) ∨ Regrouped group₁ key₁ group₂ key₂ ∨
    Regrouped group₂ key₂ group₁ key₁

/-- Different texts have the same short name. -/
def Collide (s t : String) : Prop :=
  s ≠ t ∧ shortName s = shortName t

/-- The name of a group changes and gets a dot, which was one of the key. -/
theorem Regrouped.dotted (h : Regrouped group₁ key₁ group₂ key₂) :
    group₁ ≠ group₂ ∧ '.' ∈ group₂.toList ∧ '.' ∈ key₁.toList := by
  obtain ⟨moved, rfl, rfl⟩ := h
  refine ⟨fun heq => ?_, by simp, by simp⟩
  have hlength := congrArg (·.toList.length) heq
  simp at hlength

/-- Regrouping in characters: the key up to a dot is moved to the end of the group. -/
theorem regrouped_iff :
    Regrouped group₁ key₁ group₂ key₂ ↔
      ∃ moved, group₂.toList = group₁.toList ++ '.' :: moved ∧
        key₁.toList = moved ++ '.' :: key₂.toList := by
  constructor
  · rintro ⟨moved, rfl, rfl⟩
    exact ⟨moved.toList, by simp, by simp⟩
  · rintro ⟨moved, hgroup, hkey⟩
    refine ⟨String.ofList moved, String.toList_inj.1 ?_, String.toList_inj.1 ?_⟩
    · simpa using hgroup
    · simpa using hkey

/-- Two variables are named after one text exactly if they are the same or one is the other one
regrouped. -/
theorem variableText_eq_iff :
    variableText group₁ key₁ = variableText group₂ key₂ ↔
      NamedAlike group₁ key₁ group₂ key₂ := by
  -- Both texts begin alike; what follows is two cuts of one text at a dot.
  have hchars : ∀ group key : String, (variableText group key).toList =
      "vars:".toList ++ (group.toList ++ '.' :: key.toList) := by
    intro group key
    simp [variableText]
  rw [← String.toList_inj, hchars, hchars, List.append_cancel_left_eq, Text.append_mark_eq_iff,
    NamedAlike, regrouped_iff, regrouped_iff, String.toList_inj, String.toList_inj]

/-- Two variables get one name exactly if they are named after one text or their texts collide. -/
theorem variableName_eq_iff :
    variableName options group₁ key₁ = variableName options group₂ key₂ ↔
      NamedAlike group₁ key₁ group₂ key₂ ∨
        Collide (variableText group₁ key₁) (variableText group₂ key₂) := by
  have hname : variableName options group₁ key₁ = variableName options group₂ key₂ ↔
      shortName (variableText group₁ key₁) = shortName (variableText group₂ key₂) := by
    rw [← @prefixedName_inj options, variableName, variableName, ← String.toList_inj,
      String.toList_append, String.toList_append, List.append_cancel_left_eq, String.toList_inj]
  rw [hname, ← variableText_eq_iff, Collide]
  by_cases htext : variableText group₁ key₁ = variableText group₂ key₂
  · simp [htext]
  · simp [htext]

/-- Variables of two groups that are named after one text, and so get one name. -/
theorem variableText_dotted :
    ("a", "b.c") ≠ ("a.b", "c") ∧ variableText "a" "b.c" = variableText "a.b" "c" ∧
      ∀ options, variableName options "a" "b.c" = variableName options "a.b" "c" := by
  have htext : variableText "a" "b.c" = variableText "a.b" "c" := by decide +kernel
  exact ⟨by decide, htext, fun _ => variableName_eq_iff.2 (.inl (variableText_eq_iff.1 htext))⟩

/-! ### What two groups write -/

/-- A declaration that a group writes is of the custom property of one of its keys. -/
theorem exists_key_of_mem_variableDeclarations {x : Declaration}
    (h : x ∈ variableDeclarations options group d) :
    ∃ key ∈ Keyed.keys d.entries, x.property = variableName options group key := by
  rw [← Variables.kept_ofDefinition, List.flatMap_map] at h
  obtain ⟨entry, hentry, hx⟩ := List.mem_flatMap.1 h
  exact ⟨entry.1, List.mem_map_of_mem hentry, Variables.property_of_mem_kept hx⟩

/-- Two variables are named after one text exactly if they are the same, or the beginning of the key
of one, up to a dot, has moved to the name of the group of the other; the groups are then different,
and the name of one and the key of the other have a dot. Otherwise they get one name only if their
texts collide, and so it is with the declarations of one custom property that are written for two
groups, or for two keys of one group. -/
theorem defineVars_shared (options : Options) (group₁ group₂ : String) (d₁ d₂ : Definition) :
    (∀ key₁ key₂, variableText group₁ key₁ = variableText group₂ key₂ ↔
      NamedAlike group₁ key₁ group₂ key₂) ∧
    (∀ key₁ key₂, Regrouped group₁ key₁ group₂ key₂ →
      group₁ ≠ group₂ ∧ '.' ∈ group₂.toList ∧ '.' ∈ key₁.toList) ∧
    (∀ key₁ key₂, variableName options group₁ key₁ = variableName options group₂ key₂ ↔
      NamedAlike group₁ key₁ group₂ key₂ ∨
        Collide (variableText group₁ key₁) (variableText group₂ key₂)) ∧
    ∀ c₁ c₂, defineVars options group₁ d₁ = .ok c₁ → defineVars options group₂ d₂ = .ok c₂ →
      ∃ groups₁ groups₂, GroupedByPath (variableDeclarations options group₁ d₁) groups₁ ∧
        GroupedByPath (variableDeclarations options group₂ d₂) groups₂ ∧
        c₁.rules = groups₁.map (Variables.groupRule options ":root" .variableRules) ∧
        c₂.rules = groups₂.map (Variables.groupRule options ":root" .variableRules) ∧
        ∀ x ∈ groups₁.flatMap Prod.snd, ∀ y ∈ groups₂.flatMap Prod.snd, x.property = y.property →
          ∃ key₁ ∈ Keyed.keys d₁.entries, ∃ key₂ ∈ Keyed.keys d₂.entries,
            x.property = variableName options group₁ key₁ ∧
            y.property = variableName options group₂ key₂ ∧
            (NamedAlike group₁ key₁ group₂ key₂ ∨
              Collide (variableText group₁ key₁) (variableText group₂ key₂)) := by
  refine ⟨fun _ _ => variableText_eq_iff, fun _ _ h => h.dotted, fun _ _ => variableName_eq_iff,
    fun c₁ c₂ h₁ h₂ => ?_⟩
  obtain ⟨groups₁, hgroups₁, hrules₁⟩ := exists_groups_of_defineVars h₁
  obtain ⟨groups₂, hgroups₂, hrules₂⟩ := exists_groups_of_defineVars h₂
  refine ⟨groups₁, groups₂, hgroups₁, hgroups₂, hrules₁, hrules₂, fun x hx y hy hproperty => ?_⟩
  obtain ⟨key₁, hkey₁, hname₁⟩ :=
    exists_key_of_mem_variableDeclarations (hgroups₁.perm.mem_iff.1 hx)
  obtain ⟨key₂, hkey₂, hname₂⟩ :=
    exists_key_of_mem_variableDeclarations (hgroups₂.perm.mem_iff.1 hy)
  -- Both declarations are of the variables of their keys, so the names are compared.
  have hname : variableName options group₁ key₁ = variableName options group₂ key₂ := by
    rw [← hname₁, hproperty, hname₂]
  exact ⟨key₁, hkey₁, key₂, hkey₂, hname₁, hname₂, variableName_eq_iff.1 hname⟩

/-- Two groups that write declarations of one custom property: the one variable is the other one
regrouped. -/
theorem defineVars_shared_dotted :
    let d₁ : Definition := .ofEntries [("b.c", .text "red")]
    let d₂ : Definition := .ofEntries [("c", .text "blue")]
    let c₁ : Compiled := ⟨⟨"a", [(.plain "b.c", .customProperty "var(--x1vprk3f)")]⟩,
      [⟨"x3zuaot", ":root\x7b--x1vprk3f:red\x7d", none, .variableRules⟩], []⟩
    let c₂ : Compiled := ⟨⟨"a.b", [(.plain "c", .customProperty "var(--x1vprk3f)")]⟩,
      [⟨"x1ewvofu", ":root\x7b--x1vprk3f:blue\x7d", none, .variableRules⟩], []⟩
    defineVars {} "a" d₁ = .ok c₁ ∧ defineVars {} "a.b" d₂ = .ok c₂ ∧
      variableText "a" "b.c" = variableText "a.b" "c" ∧
      Regrouped "a" "b.c" "a.b" "c" ∧ '.' ∈ "a.b".toList ∧
      ∃ groups₁ groups₂, GroupedByPath (variableDeclarations {} "a" d₁) groups₁ ∧
        GroupedByPath (variableDeclarations {} "a.b" d₂) groups₂ ∧
        c₁.rules = groups₁.map (Variables.groupRule {} ":root" .variableRules) ∧
        c₂.rules = groups₂.map (Variables.groupRule {} ":root" .variableRules) ∧
        ∃ x ∈ groups₁.flatMap Prod.snd, ∃ y ∈ groups₂.flatMap Prod.snd,
          x.property = y.property ∧ x.property = variableName {} "a" "b.c" := by
  intro d₁ d₂ c₁ c₂
  have h₁ : defineVars {} "a" d₁ = .ok c₁ := Outcome.eq_ok_of_toOption (by decide +kernel)
  have h₂ : defineVars {} "a.b" d₂ = .ok c₂ := Outcome.eq_ok_of_toOption (by decide +kernel)
  have hmoved : Regrouped "a" "b.c" "a.b" "c" := ⟨"b", by decide +kernel, by decide +kernel⟩
  have hred : variableDeclarations {} "a" d₁ = [⟨"--x1vprk3f", ["red"], []⟩] := by decide +kernel
  have hblue : variableDeclarations {} "a.b" d₂ = [⟨"--x1vprk3f", ["blue"], []⟩] := by
    decide +kernel
  obtain ⟨htext, hdotted, -, hwritten⟩ := defineVars_shared {} "a" "a.b" d₁ d₂
  obtain ⟨groups₁, groups₂, hgroups₁, hgroups₂, hrules₁, hrules₂, hshared⟩ := hwritten c₁ c₂ h₁ h₂
  have hx : ⟨"--x1vprk3f", ["red"], []⟩ ∈ groups₁.flatMap Prod.snd :=
    hgroups₁.perm.mem_iff.2 (by rw [hred]; exact List.mem_singleton.2 rfl)
  have hy : ⟨"--x1vprk3f", ["blue"], []⟩ ∈ groups₂.flatMap Prod.snd :=
    hgroups₂.perm.mem_iff.2 (by rw [hblue]; exact List.mem_singleton.2 rfl)
  obtain ⟨key₁, hkey₁, -, -, hname, -, -⟩ := hshared _ hx _ hy rfl
  obtain rfl := List.mem_singleton.1 hkey₁
  exact ⟨h₁, h₂, (htext _ _).2 (.inr (.inl hmoved)), hmoved, (hdotted _ _ hmoved).2.1,
    groups₁, groups₂, hgroups₁, hgroups₂, hrules₁, hrules₂, _, hx, _, hy, rfl, hname⟩

end AtomicCss
