import AtomicCss.Proofs.Expansion.Conditions
import AtomicCss.Proofs.Value.Dashed

/-!
# Conditions in place of properties

A definition declares under the keys at which the walk over a value begins: its own keys, and those
of its groups. A condition among its own keys is reported and nothing of it is declared. A condition
among the keys of a group is walked over like a property, and is declared as one.

* `isConditionKey_dashed`, `isConditionKey_target`: dashing and the shorthands turn no condition
  into a property, nor the other way round.
* `Definition.misplaced`: the members of groups that have a condition in place of a property.
* `conditionDeclarations_expandDefinition`: what is declared under the name of a condition is what
  these members give.
* `expandDefinition_conditionKeys`: where conditions become properties, and where they are reported.
-/

namespace AtomicCss

open Text (Stops)

/-! ### Names of conditions -/

/-- A character with which a condition begins. -/
def isConditionMark (c : Char) : Bool :=
  c == ':' || c == '@'

/-- A key is no condition exactly if it does not begin with a mark of one. -/
theorem isConditionKey_eq_false_iff {key : String} :
    isConditionKey key = false ↔ Stops isConditionMark key.toList := by
  have hmarks : ":".toList = [':'] ∧ "@".toList = ['@'] := by decide
  rw [isConditionKey, Text.startsWith, Text.startsWith, hmarks.1, hmarks.2]
  cases key.toList with
  | nil => simp [Stops]
  | cons c cs =>
    rw [Text.stops_cons, isConditionMark, BEq.comm, @BEq.comm _ _ _ c '@']
    simp [List.isPrefixOf]

/-- Dashing does not turn a condition into a property, nor the other way round. -/
theorem isConditionKey_dashed (key : String) :
    isConditionKey (Property.dashed key) = isConditionKey key := by
  unfold Property.dashed
  split
  · rfl
  · cases hkey : isConditionKey key with
    | false =>
      -- Dashing puts a dash or a small letter in front at most, and neither is a mark.
      rw [isConditionKey_eq_false_iff] at hkey ⊢
      rw [String.toList_ofList]
      refine stops_dashAfter (by decide) (fun c hc => ?_) hkey none
      have hne : c ≠ ':' ∧ c ≠ '@' := by
        constructor <;> rintro rfl <;> exact absurd hc (by decide)
      simp [isConditionMark, hne.1, hne.2]
    | true =>
      -- A mark is no capital letter, so it stays in front.
      rw [← Bool.not_eq_false, isConditionKey_eq_false_iff] at hkey ⊢
      rw [String.toList_ofList]
      cases hchars : key.toList with
      | nil => exact absurd (hchars ▸ Text.stops_nil _) hkey
      | cons c cs =>
        have hc : isConditionMark c = true := by
          rw [hchars, Text.stops_cons] at hkey
          simpa using hkey
        have hupper : c.isUpper = false := by
          have hcases : c = ':' ∨ c = '@' := by simpa [isConditionMark] using hc
          rcases hcases with rfl | rfl <;> decide
        rw [Property.dashAfter_cons_of_not_isUpper none hupper, Text.stops_cons, hc]
        simp

/-- What a property sets looks like a condition exactly if the property does. -/
theorem isConditionKey_target {property target : String} (h : target ∈ targets property) :
    isConditionKey target = isConditionKey property := by
  have hall : ∀ entry ∈ Shorthand.table, ∀ name ∈ entry.1 :: entry.2.longhands,
      isConditionKey name = false := by decide +kernel
  cases hshorthand : shorthandFor? property with
  | none =>
    simp only [targets, hshorthand, List.mem_singleton] at h
    rw [h]
  | some s =>
    have hs : (property, s) ∈ Shorthand.table := mem_table_of_shorthandFor? hshorthand
    rw [targets_of_mem_table hs] at h
    rw [hall _ hs _ (List.mem_cons_of_mem _ h), hall _ hs _ List.mem_cons_self]

/-- What the walk declares is under the name of a condition if it began at one. -/
theorem isConditionKey_of_mem_walk {options : Options} {property : String} {path : List Condition}
    {value : StyleValue} {d : Declaration}
    (h : d ∈ (walk options property path value).flatMap Event.declarations) :
    isConditionKey d.property = isConditionKey property := by
  obtain ⟨keys, hof⟩ := isOf_of_mem_walk h
  rcases hof.property with hsame | htarget
  · rw [hsame]
  · exact isConditionKey_target htarget

/-! ### Members of groups -/

/-- A member of a group: a value under the key of a property, in the group of a pseudo-element. -/
structure Member where
  /-- The key of the group. -/
  group : String
  /-- The key of the member, which stands in the place of a property. -/
  key : String
  /-- The value of the member. -/
  value : StyleValue

/-- What a member gives on its own. -/
def Member.expand (options : Options) (m : Member) : Expansion :=
  ⟨walk options (Property.dashed m.key) [.ofKey m.group] m.value⟩

/-- Whether a member has a condition in place of a property. -/
def Member.isMisplaced (m : Member) : Bool :=
  isConditionKey m.key

/-- The members of an entry of a definition, if it is a group. -/
def entryMembers (key : String) : StyleValue → List Member
  | .conditional group =>
    if isGroupKey key then group.map fun entry => ⟨key, entry.1, entry.2⟩ else []
  | _ => []

/-- The members of the groups of a definition, in authored order. -/
def Definition.members (d : Definition) : List Member :=
  d.entries.flatMap fun entry => entryMembers entry.1 entry.2

/-- The members that have a condition in place of a property. -/
def Definition.misplaced (d : Definition) : List Member :=
  d.members.filter Member.isMisplaced

/-- The declarations under the name of a condition. -/
def Expansion.conditionDeclarations (e : Expansion) : List Declaration :=
  e.declarations.filter fun c => isConditionKey c.property

theorem Expansion.conditionDeclarations_append (es fs : List Event) :
    conditionDeclarations ⟨es ++ fs⟩ =
      conditionDeclarations ⟨es⟩ ++ conditionDeclarations ⟨fs⟩ := by
  rw [conditionDeclarations, declarations_append, List.filter_append]
  rfl

section Members

variable {options : Options}

/-- The walk over a value of a property declares nothing under the name of a condition. -/
theorem conditionDeclarations_walk_of_property {property : String} {path : List Condition}
    {value : StyleValue} (h : isConditionKey property = false) :
    Expansion.conditionDeclarations ⟨walk options property path value⟩ = [] := by
  refine List.filter_eq_nil_iff.2 fun d hd => ?_
  rw [isConditionKey_of_mem_walk hd, h]
  exact Bool.false_ne_true

/-- The walk over a value of a condition declares everything under the name of a condition. -/
theorem conditionDeclarations_walk_of_condition {property : String} {path : List Condition}
    {value : StyleValue} (h : isConditionKey property = true) :
    Expansion.conditionDeclarations ⟨walk options property path value⟩ =
      Expansion.declarations ⟨walk options property path value⟩ := by
  refine List.filter_eq_self.2 fun d hd => ?_
  rw [isConditionKey_of_mem_walk hd, h]

/-- Of a group, the misplaced members are what declares under the name of a condition. -/
theorem conditionDeclarations_walkGroup (key : String) (group : List (String × StyleValue)) :
    Expansion.conditionDeclarations ⟨walkGroup options key group⟩ =
      ((group.map fun entry => Member.mk key entry.1 entry.2).filter Member.isMisplaced).flatMap
        fun m => (m.expand options).declarations := by
  induction group with
  | nil => rfl
  | cons entry rest ih =>
    rw [walkGroup, List.flatMap_cons, Expansion.conditionDeclarations_append, ← walkGroup, ih,
      List.map_cons, List.filter_cons]
    cases hkey : isConditionKey entry.1 with
    | false =>
      rw [conditionDeclarations_walk_of_property (by rw [isConditionKey_dashed, hkey]),
        if_neg (by simp [Member.isMisplaced, hkey]), List.nil_append]
    | true =>
      rw [conditionDeclarations_walk_of_condition (by rw [isConditionKey_dashed, hkey]),
        if_pos (by simp [Member.isMisplaced, hkey]), List.flatMap_cons]
      rfl

/-- An entry declares under the name of a condition what its misplaced members give. -/
theorem conditionDeclarations_walkEntry (key : String) (value : StyleValue) :
    Expansion.conditionDeclarations ⟨walkEntry options key value⟩ =
      ((entryMembers key value).filter Member.isMisplaced).flatMap
        fun m => (m.expand options).declarations := by
  cases hgroup : isGroupKey key with
  | true =>
    cases value with
    | conditional group =>
      simp only [walkEntry, entryMembers, hgroup, if_true]
      exact conditionDeclarations_walkGroup key group
    | _ => simp [walkEntry, entryMembers, hgroup, Expansion.conditionDeclarations,
        Expansion.declarations, Event.declarations]
  | false =>
    -- Outside a group a condition gives no declaration, and a property none under such a name.
    have hmembers : entryMembers key value = [] := by
      cases value <;> simp [entryMembers, hgroup]
    unfold walkEntry
    rw [hmembers, hgroup, if_neg Bool.false_ne_true]
    cases hkey : isConditionKey key with
    | true => rfl
    | false =>
      rw [if_neg Bool.false_ne_true]
      exact conditionDeclarations_walk_of_property (by rw [isConditionKey_dashed, hkey])

/-- A definition declares under the name of a condition what its misplaced members give. -/
theorem conditionDeclarations_expandDefinition (d : Definition) :
    (expandDefinition options d).conditionDeclarations =
      d.misplaced.flatMap fun m => (m.expand options).declarations := by
  rw [expandDefinition, Definition.misplaced, Definition.members]
  induction d.entries with
  | nil => rfl
  | cons entry rest ih =>
    rw [List.flatMap_cons, Expansion.conditionDeclarations_append, conditionDeclarations_walkEntry,
      ih, List.flatMap_cons, List.filter_append, List.flatMap_append]

/-- A condition among the keys of a definition is rejected, unless it is a group. -/
theorem entryAttempts_of_isConditionKey {key : String} (h : isConditionKey key = true)
    (value : StyleValue) :
    (isGroupKey key = true ∧ ∃ group, value = .conditional group) ∨
      ∃ reason, entryAttempts key value = [.rejected key reason] := by
  cases hgroup : isGroupKey key with
  | false =>
    right
    exact ⟨.conditionKey, by simp [entryAttempts, hgroup, h]⟩
  | true =>
    cases value with
    | conditional group => exact .inl ⟨rfl, group, rfl⟩
    | _ =>
      right
      simp only [entryAttempts, hgroup, if_true]
      exact ⟨_, rfl⟩

end Members

/-- An entry that is rejected is reported, with its key and the reason. -/
theorem mem_errors_of_rejected {options : Options} {d : Definition}
    {entry : String × StyleValue} (hentry : entry ∈ d.entries) {key : String}
    {reason : Unsupported} (h : .rejected key reason ∈ entryAttempts entry.1 entry.2) :
    .unsupported key reason ∈ (expandDefinition options d).errors := by
  rw [(tallies_expandDefinition options d).errors]
  refine List.mem_flatMap.2 ⟨.rejected key reason, ?_, List.mem_singleton.2 rfl⟩
  exact List.mem_flatMap.2 ⟨entry, hentry, h⟩

/-- Whatever is declared under the name of a condition comes from a member of a group that has a
condition in place of a property, and all that such a member gives is declared so. A condition among
the keys of the definition itself is a group of properties, or it is rejected as a whole and
reported. -/
theorem expandDefinition_conditionKeys (options : Options) (d : Definition) :
    let e := expandDefinition options d
    (e.declarations.filter (fun c => isConditionKey c.property) =
      d.misplaced.flatMap fun m => (m.expand options).declarations) ∧
    ((∀ c ∈ e.declarations, isConditionKey c.property = false) ↔
      ∀ m ∈ d.misplaced, (m.expand options).declarations = []) ∧
    ∀ entry ∈ d.entries, isConditionKey entry.1 = true →
      (isGroupKey entry.1 = true ∧ ∃ group, entry.2 = .conditional group) ∨
      ∃ reason, entryAttempts entry.1 entry.2 = [.rejected entry.1 reason] ∧
        .unsupported entry.1 reason ∈ e.errors := by
  intro e
  have hconditions : e.conditionDeclarations =
      d.misplaced.flatMap fun m => (m.expand options).declarations :=
    conditionDeclarations_expandDefinition d
  refine ⟨hconditions, ?_, ?_⟩
  · calc (∀ c ∈ e.declarations, isConditionKey c.property = false)
      _ ↔ e.conditionDeclarations = [] := by simp [Expansion.conditionDeclarations]
      _ ↔ ∀ m ∈ d.misplaced, (m.expand options).declarations = [] := by
        rw [hconditions, List.flatMap_eq_nil_iff]
  · -- Among the keys of the definition a condition is a group or is rejected.
    intro entry hentry hkey
    rcases entryAttempts_of_isConditionKey hkey entry.2 with hgroup | ⟨reason, hrejected⟩
    · exact .inl hgroup
    · refine .inr ⟨reason, hrejected, mem_errors_of_rejected hentry ?_⟩
      rw [hrejected]
      exact List.mem_singleton.2 rfl

/-- Among the keys of a definition a condition is reported; among those of a group it is declared as
a property. -/
theorem expandDefinition_conditionKeys_hover :
    let hover : StyleValue := .conditional [(":hover", .text "red")]
    let d : Definition := .ofEntries [("::before", hover), (":focus", hover)]
    let e := expandDefinition {} d
    e.declarations = [⟨":hover", ["red"], [.ofKey "::before"]⟩] ∧
    (¬ ∀ c ∈ e.declarations, isConditionKey c.property = false) ∧
    ∃ reason, .unsupported ":focus" reason ∈ e.errors := by
  intro hover d e
  obtain ⟨-, hnone, hreported⟩ := expandDefinition_conditionKeys {} d
  have hmember : (⟨"::before", ":hover", .text "red"⟩ : Member) ∈ d.misplaced := by
    refine List.mem_filter.2 ⟨List.mem_flatMap.2 ⟨_, List.mem_cons_self, ?_⟩, by decide⟩
    rw [entryMembers, if_pos (by decide)]
    exact List.mem_cons_self
  refine ⟨by decide +kernel, fun h => ?_, ?_⟩
  · exact absurd (hnone.1 h _ hmember) (by decide +kernel)
  · have hentry : (":focus", hover) ∈ d.entries := List.mem_cons_of_mem _ List.mem_cons_self
    rcases hreported _ hentry (by decide) with ⟨hgroup, -⟩ | ⟨reason, -, hreason⟩
    · exact absurd hgroup (by decide)
    · exact ⟨reason, hreason⟩

end AtomicCss
