import AtomicCss.Compile
import AtomicCss.Proofs.Lookup
import AtomicCss.Proofs.Rule
import AtomicCss.Proofs.Sheet.Order

/-!
# Compiled tables refer to rules that exist

A namespace is compiled to a table and to rules. The table has an entry for each key of a
declaration and keeps the last one; the rules are the first for each class. So the declaration
behind an entry need not be the one behind the rule for its class, but there is such a rule, and
every sheet that is built from these rules first keeps it.

* `Declaration.styleRef_eq`: what an entry says of its declaration.
* `compileDeclarations_get?`: the entry of a key is that of the last declaration with this key.
* `exists_rule_of_className`: the class of an entry has a rule.
* `compileNamespace_refers`: all this of a compiled namespace.
-/

namespace AtomicCss

namespace Declaration

/-- A declaration that unsets its property has no class, and every other one has its own. -/
theorem styleRef_eq (options : Options) (d : Declaration) :
    d.styleRef options = if d.isUnset then .unset else .className (d.className options) := by
  cases hunset : d.isUnset with
  | true => simp [styleRef, rule?, hunset]
  | false =>
    obtain ⟨r, hr⟩ := exists_rule? options hunset
    simp [styleRef, hr, (rule?_eq_some hr).1]

end Declaration

/-! ### The table -/

variable {options : Options} {name : String} {ds : List Declaration} {errors : List StyleError}

/-- The last of the declarations with a key. -/
def lastWithKey? (ds : List Declaration) (key : LookupKey) : Option Declaration :=
  ds.reverse.find? (·.lookupKey = key)

/-- The last declaration under a key is one of the declarations searched. -/
theorem mem_of_lastWithKey? {key : LookupKey} {last : Declaration}
    (h : lastWithKey? ds key = some last) : last ∈ ds :=
  List.mem_reverse.1 (List.mem_of_find?_eq_some h)

theorem lookupKey_of_lastWithKey? {key : LookupKey} {last : Declaration}
    (h : lastWithKey? ds key = some last) : last.lookupKey = key := by
  simpa using List.find?_some h

/-- The search succeeds for the key of any declaration in the list. -/
theorem exists_lastWithKey? {d : Declaration} (h : d ∈ ds) :
    ∃ last, lastWithKey? ds d.lookupKey = some last := by
  rw [← Option.isSome_iff_exists, lastWithKey?, List.find?_isSome]
  exact ⟨d, List.mem_reverse.2 h, by simp⟩

/-- The entry of a key is that of the last declaration with this key. -/
theorem compileDeclarations_get? (key : LookupKey) :
    (compileDeclarations options name ds errors).table.get? key =
      (lastWithKey? ds key).map (Declaration.styleRef options) := by
  show ((LookupTable.empty name).insertAll _).get? key = _
  rw [LookupTable.get?_insertAll, ← List.map_reverse, List.find?_map, Option.map_map]
  exact Option.or_none

/-- The table of a compiled namespace is sorted by key. -/
theorem sorted_compileDeclarations :
    LookupTable.Sorted (compileDeclarations options name ds errors).table.entries :=
  LookupTable.sorted_insertAll (t := .empty name) List.Pairwise.nil _

/-- The entries of a compiled table. -/
theorem mem_entries_compileDeclarations {key : LookupKey} {ref : StyleRef} :
    (key, ref) ∈ (compileDeclarations options name ds errors).table.entries ↔
      ∃ last, lastWithKey? ds key = some last ∧ ref = last.styleRef options := by
  rw [LookupTable.mem_entries_iff sorted_compileDeclarations, compileDeclarations_get?,
    Option.map_eq_some_iff]
  simp only [eq_comm]

/-- The keys of the table are those of the declarations, no more and no fewer. -/
theorem mem_keys_compileDeclarations {key : LookupKey} :
    key ∈ (compileDeclarations options name ds errors).table.entries.map Prod.fst ↔
      ∃ d ∈ ds, key = d.lookupKey := by
  rw [List.mem_map]
  constructor
  · rintro ⟨⟨_, ref⟩, hmem, rfl⟩
    obtain ⟨last, hlast, -⟩ := mem_entries_compileDeclarations.1 hmem
    exact ⟨last, mem_of_lastWithKey? hlast, (lookupKey_of_lastWithKey? hlast).symm⟩
  · rintro ⟨d, hd, rfl⟩
    obtain ⟨last, hlast⟩ := exists_lastWithKey? hd
    exact ⟨(d.lookupKey, last.styleRef options),
      mem_entries_compileDeclarations.2 ⟨last, hlast, rfl⟩, rfl⟩

/-- No key stands twice in the table. -/
theorem nodup_keys_compileDeclarations :
    ((compileDeclarations options name ds errors).table.entries.map Prod.fst).Nodup := by
  refine List.pairwise_map.2 (sorted_compileDeclarations.imp ?_)
  rintro a b hlt heq
  rw [heq] at hlt
  exact LookupKey.lt_irrefl _ hlt

/-! ### The rules -/

/-- The class of an entry has a rule. -/
theorem exists_rule_of_className {key : LookupKey} {className : String}
    (h : (key, .className className) ∈
      (compileDeclarations options name ds errors).table.entries) :
    ∃ r ∈ (compileDeclarations options name ds errors).rules, r.className = className := by
  obtain ⟨d, hd, href⟩ := mem_entries_compileDeclarations.1 h
  unfold Declaration.styleRef at href
  split at href
  · next r hr =>
    -- The declaration has a rule, and the first rule for its class is kept.
    have hrule : r ∈ ds.filterMap (·.rule? options) :=
      List.mem_filterMap.2 ⟨d, mem_of_lastWithKey? hd, hr⟩
    obtain ⟨s, hs, hsame⟩ := exists_mem_firstByClass hrule
    exact ⟨s, hs, hsame.trans (StyleRef.className.inj href).symm⟩
  · cases href

/-- Every rule of a compilation is kept by the sheets in which these rules come first. -/
theorem mem_ofRules_compileDeclarations {r : Rule}
    (h : r ∈ (compileDeclarations options name ds errors).rules) (later : List Rule) :
    r ∈ (Sheet.ofRules ((compileDeclarations options name ds errors).rules ++ later)).rules := by
  refine Sheet.mem_ofRules.2 (mem_firstByClass_append (Sheet.mem_firstByClass_of_mem ?_ h) later)
  intro s hs t ht
  exact eq_of_mem_firstByClass hs ht

/-! ### Compiled namespaces -/

/-- A compilation that succeeds is that of the declarations of the expansion. -/
theorem compileNamespace_eq_ok {d : Definition} {c : Compiled}
    (h : compileNamespace options name d = .ok c) :
    compileDeclarations options name (expandDefinition options d).declarations
      (expandDefinition options d).errors = c := by
  simp only [compileNamespace] at h
  split at h
  · cases h
  · exact Except.ok.inj h

/-- In a compiled namespace no class has two rules. The keys of the table are those of the
declarations, each with one entry: the class of the last declaration with this key, or none if that
one unsets its property. Each class in the table has exactly one rule, which is kept by every sheet
in which these rules come first. -/
theorem compileNamespace_refers {d : Definition} {c : Compiled}
    (h : compileNamespace options name d = .ok c) :
    let ds := (expandDefinition options d).declarations
    (c.rules.map Rule.className).Nodup ∧
    (c.table.entries.map Prod.fst).Nodup ∧
    (∀ key, key ∈ c.table.entries.map Prod.fst ↔
      ∃ d ∈ ds, key = ⟨d.property, Condition.texts d.conditions⟩) ∧
    (∀ key ref, (key, ref) ∈ c.table.entries ↔
      ∃ last, lastWithKey? ds key = some last ∧
        ref = if last.isUnset then .unset else .className (last.className options)) ∧
    (∀ key className, (key, .className className) ∈ c.table.entries →
      (c.rules.map Rule.className).count className = 1 ∧
      ∀ later, ∃ r ∈ c.rules, r.className = className ∧
        r ∈ (Sheet.ofRules (c.rules ++ later)).rules) := by
  intro ds
  obtain rfl := compileNamespace_eq_ok h
  refine ⟨nodup_firstByClass _, nodup_keys_compileDeclarations,
    fun key => mem_keys_compileDeclarations, ?_, ?_⟩
  · intro key ref
    rw [mem_entries_compileDeclarations]
    simp only [Declaration.styleRef_eq]
    rfl
  · intro key className hmem
    obtain ⟨r, hr, rfl⟩ := exists_rule_of_className hmem
    refine ⟨List.count_eq_one_of_mem (nodup_firstByClass _) (List.mem_map_of_mem hr), ?_⟩
    intro later
    exact ⟨r, hr, rfl, mem_ofRules_compileDeclarations hr later⟩

/-- One edge of a margin is unset: its rule is still there, but the table has no class for it. -/
theorem compileNamespace_refers_unset :
    let d : Definition :=
      .ofEntries [("margin", .text "1px"), ("margin-top", .null), ("color", .text "red")]
    ∃ c, compileNamespace {} "a" d = .ok c ∧ c.rules.length = 5 ∧
      (.plain "margin-top", .unset) ∈ c.table.entries ∧
      (.plain "color", .className "x64kc63") ∈ c.table.entries ∧
      (c.rules.map Rule.className).count "x64kc63" = 1 := by
  intro d
  have hok : (expandDefinition {} d).failure? = none := by decide +kernel
  have hc : compileNamespace {} "a" d = .ok (compileDeclarations {} "a"
      (expandDefinition {} d).declarations (expandDefinition {} d).errors) := by
    rw [compileNamespace, hok]
  obtain ⟨-, -, -, hentries, hclasses⟩ := compileNamespace_refers hc
  have hcolor : (.plain "color", .className "x64kc63") ∈ (compileDeclarations {} "a"
      (expandDefinition {} d).declarations (expandDefinition {} d).errors).table.entries := by
    refine (hentries _ _).2 ⟨⟨"color", ["red"], []⟩, ?_, ?_⟩ <;> decide +kernel
  refine ⟨_, hc, by decide +kernel, ?_, hcolor, (hclasses _ _ hcolor).1⟩
  refine (hentries _ _).2 ⟨⟨"margin-top", [], []⟩, ?_, ?_⟩ <;> decide +kernel

end AtomicCss
