import AtomicCss.Proofs.Sheet
import Mathlib.Data.List.Nodup

/-!
# The order of rules in a sheet

A sheet has the first rule for each class, in the order of the priorities, and rules of one priority
in the order in which their classes first occur. Five conditions say so, and the rules of the sheet
are the only list that meets them.

* `firstPlace`: where a class occurs first.
* `Sheet.filter_priority_ofRules`: sorting leaves the rules of one priority in order.
* `Sheet.Arranges`: the five conditions. `Sheet.arranges_ofRules` is that the sheet meets them,
  `Sheet.Arranges.unique` that no other list does.
* `Sheet.ofRules_eq_iff_sameTies`: what becomes of a sheet if the rules are collected in another
  order.
-/

namespace AtomicCss

/-! ### First occurrences -/

/-- The place where a class occurs first. -/
def firstPlace (rules : List Rule) (className : String) : Nat :=
  rules.findIdx (·.className = className)

theorem firstPlace_cons_self (r : Rule) (rs : List Rule) :
    firstPlace (r :: rs) r.className = 0 := by
  simp [firstPlace, List.findIdx_cons]

theorem firstPlace_cons_of_ne {r : Rule} {className : String} (h : className ≠ r.className)
    (rs : List Rule) : firstPlace (r :: rs) className = firstPlace rs className + 1 := by
  simp [firstPlace, List.findIdx_cons, h.symm]

theorem mem_of_mem_firstByClass {rules : List Rule} {r : Rule} (h : r ∈ firstByClass rules) :
    r ∈ rules :=
  List.mem_of_find?_eq_some (mem_firstByClass_iff.1 h)

/-- Every class keeps a rule. -/
theorem exists_mem_firstByClass {rules : List Rule} {r : Rule} (h : r ∈ rules) :
    ∃ s ∈ firstByClass rules, s.className = r.className := by
  obtain ⟨s, hs⟩ : ∃ s, rules.find? (·.className = r.className) = some s := by
    rw [← Option.isSome_iff_exists, List.find?_isSome]
    exact ⟨r, h, by simp⟩
  have hclass : s.className = r.className := by simpa using List.find?_some hs
  refine ⟨s, mem_firstByClass_iff.2 ?_, hclass⟩
  rw [hclass]
  exact hs

/-- The kept rules stand in the order in which their classes first occur. -/
theorem pairwise_firstByClass (rules : List Rule) :
    (firstByClass rules).Pairwise fun r s =>
      firstPlace rules r.className < firstPlace rules s.className := by
  induction rules with
  | nil => exact .nil
  | cons t rs ih =>
    have hother : ∀ r ∈ (firstByClass rs).filter (·.className != t.className),
        firstPlace (t :: rs) r.className = firstPlace rs r.className + 1 := by
      intro r hr
      exact firstPlace_cons_of_ne (by simpa using (List.mem_filter.1 hr).2) rs
    refine List.pairwise_cons.2 ⟨?_, ?_⟩
    · intro r hr
      rw [firstPlace_cons_self, hother r hr]
      exact Nat.succ_pos _
    · refine (ih.sublist List.filter_sublist).imp_of_mem ?_
      intro r s hr hs hlt
      rw [hother r hr, hother s hs]
      exact Nat.succ_lt_succ hlt

/-- One rule is kept for each class. -/
theorem nodup_firstByClass (rules : List Rule) :
    ((firstByClass rules).map Rule.className).Nodup := by
  refine List.pairwise_map.2 ((pairwise_firstByClass rules).imp ?_)
  intro r s hlt hclass
  rw [hclass] at hlt
  exact Nat.lt_irrefl _ hlt

/-! ### Sorting -/

theorem Rule.precedes_iff {r s : Rule} : r.precedes s ↔ r.priority.value ≤ s.priority.value := by
  simp [Rule.precedes]

theorem Rule.precedes_trans (r s t : Rule) (hrs : r.precedes s) (hst : s.precedes t) :
    r.precedes t :=
  precedes_iff.2 (UInt32.le_trans (precedes_iff.1 hrs) (precedes_iff.1 hst))

theorem Rule.precedes_total (r s : Rule) : r.precedes s || s.precedes r := by
  rw [Bool.or_eq_true, precedes_iff, precedes_iff]
  exact UInt32.le_total _ _

namespace Sheet

variable {rules out : List Rule}

/-- Sorting loses no rule and adds none. -/
theorem perm_ofRules (rules : List Rule) : (ofRules rules).rules.Perm (firstByClass rules) :=
  List.mergeSort_perm _ _

/-- The rules of a sheet are sorted by priority. -/
theorem pairwise_ofRules (rules : List Rule) :
    (ofRules rules).rules.Pairwise fun r s => r.priority.value ≤ s.priority.value :=
  (List.pairwise_mergeSort Rule.precedes_trans Rule.precedes_total _).imp Rule.precedes_iff.1

/-- Rules that are in order already stay as they are. -/
theorem ofRules_eq_of_pairwise
    (h : (firstByClass rules).Pairwise fun r s => r.priority.value ≤ s.priority.value) :
    ofRules rules = ⟨firstByClass rules⟩ :=
  congrArg Sheet.mk (List.mergeSort_of_pairwise (h.imp Rule.precedes_iff.2))

/-- The rules of one priority stay in order. -/
theorem filter_priority_ofRules (rules : List Rule) (p : Priority) :
    (ofRules rules).rules.filter (·.priority = p) =
      (firstByClass rules).filter (·.priority = p) := by
  have hties : ((firstByClass rules).filter (·.priority = p)).Pairwise
      fun r s => r.precedes s := by
    refine List.pairwise_iff_forall_sublist.2 ?_
    intro r s hpair
    have hr : r.priority = p := by simpa using (List.mem_filter.1 (hpair.mem (by simp))).2
    have hs : s.priority = p := by simpa using (List.mem_filter.1 (hpair.mem (by simp))).2
    rw [Rule.precedes_iff, hr, hs]
    exact UInt32.le_refl _
  have hsub : ((firstByClass rules).filter (·.priority = p)).Sublist (ofRules rules).rules :=
    List.sublist_mergeSort Rule.precedes_trans Rule.precedes_total hties List.filter_sublist
  -- Both sides have the same length, so a sublist of the other is the other.
  have hfilter := hsub.filter (·.priority = p)
  rw [List.filter_filter] at hfilter
  simp only [Bool.and_self] at hfilter
  exact (hfilter.eq_of_length ((perm_ofRules rules).filter _).length_eq.symm).symm

/-! ### What a sheet holds -/

/-- The conditions on the rules `out` of a sheet that is made of `rules`. -/
structure Arranges (rules out : List Rule) : Prop where
  /-- No class has two rules. -/
  nodup : (out.map Rule.className).Nodup
  /-- The classes are those of the given rules. -/
  classes : ∀ className, className ∈ out.map Rule.className ↔ className ∈ rules.map Rule.className
  /-- Each rule is the first one for its class. -/
  first : ∀ r ∈ out, rules.find? (·.className = r.className) = some r
  /-- No rule stands before one of a lower priority. -/
  sorted : out.Pairwise fun r s => r.priority.value ≤ s.priority.value
  /-- Rules of one priority stand in the order in which their classes first occur. -/
  ties : out.Pairwise fun r s => r.priority = s.priority →
    firstPlace rules r.className < firstPlace rules s.className

/-- The rules of a sheet meet all of the conditions. -/
theorem arranges_ofRules (rules : List Rule) : Arranges rules (ofRules rules).rules where
  nodup := ((perm_ofRules rules).map Rule.className).nodup_iff.2 (nodup_firstByClass rules)
  classes className := by
    rw [((perm_ofRules rules).map Rule.className).mem_iff]
    simp only [List.mem_map]
    constructor
    · rintro ⟨r, hr, rfl⟩
      exact ⟨r, mem_of_mem_firstByClass hr, rfl⟩
    · rintro ⟨r, hr, rfl⟩
      exact exists_mem_firstByClass hr
  first r hr := mem_firstByClass_iff.1 (mem_ofRules.1 hr)
  sorted := pairwise_ofRules rules
  ties := by
    refine List.pairwise_iff_forall_sublist.2 ?_
    intro r s hpair hpriority
    -- The two rules stand in this order among those of their priority, hence before sorting too.
    have hties := hpair.filter (·.priority = s.priority)
    rw [filter_priority_ofRules] at hties
    have hkept : [r, s].Sublist (firstByClass rules) := by
      refine List.Sublist.trans ?_ (hties.trans List.filter_sublist)
      simp [hpriority]
    exact List.pairwise_iff_forall_sublist.1 (pairwise_firstByClass rules) hkept

/-- The conditions say which rules there are. -/
theorem Arranges.mem_iff (h : Arranges rules out) {r : Rule} :
    r ∈ out ↔ r ∈ firstByClass rules := by
  rw [mem_firstByClass_iff]
  constructor
  · exact h.first r
  · intro hfind
    have hclass : r.className ∈ out.map Rule.className :=
      (h.classes _).2 (List.mem_map_of_mem (List.mem_of_find?_eq_some hfind))
    obtain ⟨s, hs, hsame⟩ := List.mem_map.1 hclass
    have hfirst := h.first s hs
    rw [hsame, hfind, Option.some.injEq] at hfirst
    rw [hfirst]
    exact hs

theorem Arranges.perm (h : Arranges rules out) : out.Perm (firstByClass rules) :=
  (List.perm_ext_iff_of_nodup (List.Nodup.of_map _ h.nodup)
    (List.Nodup.of_map _ (nodup_firstByClass rules))).2 fun _ => h.mem_iff

/-- Whether one rule has to stand before another: its priority is lower, or it is the same and its
class occurs earlier. -/
def ComesBefore (rules : List Rule) (r s : Rule) : Prop :=
  r.priority.value ≤ s.priority.value ∧
    (r.priority = s.priority → firstPlace rules r.className < firstPlace rules s.className)

/-- Of two rules at most one has to stand before the other. -/
theorem ComesBefore.asymm {r s : Rule} (hrs : ComesBefore rules r s) :
    ¬ ComesBefore rules s r := by
  intro hsr
  have hvalue : r.priority.value = s.priority.value := UInt32.le_antisymm hrs.1 hsr.1
  have hpriority : r.priority = s.priority := congrArg Priority.mk hvalue
  exact Nat.lt_asymm (hrs.2 hpriority) (hsr.2 hpriority.symm)

/-- No two lists meet the conditions. -/
theorem Arranges.unique {out' : List Rule} (h : Arranges rules out) (h' : Arranges rules out') :
    out = out' := by
  refine List.Perm.eq_of_pairwise ?_ (h.sorted.and h.ties) (h'.sorted.and h'.ties)
    (h.perm.trans h'.perm.symm)
  intro r s _ _ hrs hsr
  exact absurd hsr (ComesBefore.asymm hrs)

/-- The sheet of some rules has the first rule for each class, sorted by priority, where rules of
one priority stand in the order in which their classes first occur. This determines it. -/
theorem rules_ofRules_eq_iff (rules out : List Rule) :
    (ofRules rules).rules = out ↔ Arranges rules out := by
  constructor
  · rintro rfl
    exact arranges_ofRules rules
  · intro h
    exact (arranges_ofRules rules).unique h

/-! ### Rules that are collected in another order -/

/-- Whether the rules of one priority stand in the same order in both lists. -/
def SameTies (rules others : List Rule) : Prop :=
  ∀ r ∈ rules, ∀ s ∈ rules, r.priority = s.priority →
    (firstPlace rules r.className < firstPlace rules s.className ↔
      firstPlace others r.className < firstPlace others s.className)

section

variable {others : List Rule}
  (hclass : ∀ r ∈ rules, ∀ s ∈ rules, r.className = s.className → r = s)
include hclass

/-- If a class has one rule only, then every rule is kept. -/
theorem mem_firstByClass_of_mem {r : Rule} (h : r ∈ rules) : r ∈ firstByClass rules := by
  obtain ⟨s, hs, hsame⟩ := exists_mem_firstByClass h
  rw [← hclass s (mem_of_mem_firstByClass hs) r h hsame]
  exact hs

/-- If no class has two rules, the order of the rules does not decide which are kept. -/
theorem mem_firstByClass_of_perm (hperm : rules.Perm others) {r : Rule} :
    r ∈ firstByClass rules ↔ r ∈ firstByClass others := by
  have hclass' : ∀ r ∈ others, ∀ s ∈ others, r.className = s.className → r = s :=
    fun r hr s hs => hclass r (hperm.mem_iff.2 hr) s (hperm.mem_iff.2 hs)
  constructor
  · intro hr
    exact mem_firstByClass_of_mem hclass' (hperm.mem_iff.1 (mem_of_mem_firstByClass hr))
  · intro hr
    exact mem_firstByClass_of_mem hclass (hperm.mem_iff.2 (mem_of_mem_firstByClass hr))

theorem perm_firstByClass (hperm : rules.Perm others) :
    (firstByClass rules).Perm (firstByClass others) :=
  (List.perm_ext_iff_of_nodup (List.Nodup.of_map _ (nodup_firstByClass rules))
    (List.Nodup.of_map _ (nodup_firstByClass others))).2
    fun _ => mem_firstByClass_of_perm hclass hperm

/-- If no class has two rules, the sheets of rearranged rules have the same rules. -/
theorem perm_ofRules_of_perm (hperm : rules.Perm others) :
    (ofRules rules).rules.Perm (ofRules others).rules :=
  (perm_ofRules rules).trans ((perm_firstByClass hclass hperm).trans (perm_ofRules others).symm)

theorem priorities_ofRules_of_perm (hperm : rules.Perm others) :
    (ofRules rules).rules.map Rule.priority = (ofRules others).rules.map Rule.priority := by
  have hsorted (rules : List Rule) : ((ofRules rules).rules.map Rule.priority).Pairwise
      fun p q => p.value ≤ q.value := List.pairwise_map.2 (pairwise_ofRules rules)
  refine List.Perm.eq_of_pairwise ?_ (hsorted rules) (hsorted others)
    ((perm_ofRules_of_perm hclass hperm).map Rule.priority)
  intro p q _ _ hpq hqp
  exact congrArg Priority.mk (UInt32.le_antisymm hpq hqp)

/-- The sheet of one list meets the conditions for the other, if ties are the same. -/
theorem arranges_of_sameTies (hperm : rules.Perm others) (hties : SameTies rules others) :
    Arranges others (ofRules rules).rules where
  nodup := (arranges_ofRules rules).nodup
  classes className := by
    rw [(arranges_ofRules rules).classes, (hperm.map Rule.className).mem_iff]
  first r hr :=
    mem_firstByClass_iff.1 ((mem_firstByClass_of_perm hclass hperm).1 (mem_ofRules.1 hr))
  sorted := pairwise_ofRules rules
  ties := by
    refine (arranges_ofRules rules).ties.imp_of_mem ?_
    intro r s hr hs hlt hpriority
    have hmem : ∀ t ∈ (ofRules rules).rules, t ∈ rules :=
      fun t ht => mem_of_mem_firstByClass (mem_ofRules.1 ht)
    exact (hties r (hmem r hr) s (hmem s hs) hpriority).1 (hlt hpriority)

/-- If two sheets are the same, then so is the order of the classes of one priority, since the sheet
shows it. -/
theorem sameTies_of_eq (heq : ofRules rules = ofRules others) : SameTies rules others := by
  have hkept : ∀ t ∈ rules, t ∈ (ofRules rules).rules :=
    fun t ht => mem_ofRules.2 (mem_firstByClass_of_mem hclass ht)
  have hboth := (arranges_ofRules rules).ties.and (heq ▸ (arranges_ofRules others).ties)
  -- Of two rules one stands first in the sheet, and then its class occurs first in both lists.
  have hpairs := List.Pairwise.forall_of_forall_of_flip
    (R := fun r s : Rule => r.priority = s.priority →
      (firstPlace rules r.className < firstPlace rules s.className ↔
        firstPlace others r.className < firstPlace others s.className))
    (fun r _ _ => by simp)
    (hboth.imp fun h hpriority => iff_of_true (h.1 hpriority) (h.2 hpriority))
    (hboth.imp fun h hpriority => iff_of_false (Nat.lt_asymm (h.1 hpriority.symm))
      (Nat.lt_asymm (h.2 hpriority.symm)))
  intro r hr s hs hpriority
  exact hpairs (hkept r hr) (hkept s hs) hpriority

end

/-- Rules may be collected in any order. If no class has two different rules, then each order gives
a sheet with the same rules and with the same priority at every place. Two orders give the same
sheet exactly if the classes of one priority first occur in the same order; then the texts are the
same, flat and in layers. -/
theorem ofRules_eq_iff_sameTies {rules others : List Rule} (hperm : rules.Perm others)
    (hclass : ∀ r ∈ rules, ∀ s ∈ rules, r.className = s.className → r = s) :
    (ofRules rules).rules.Perm (ofRules others).rules ∧
      (ofRules rules).rules.map Rule.priority = (ofRules others).rules.map Rule.priority ∧
      (ofRules rules = ofRules others ↔ SameTies rules others) ∧
      (SameTies rules others →
        ∀ useLayers, (ofRules rules).text useLayers = (ofRules others).text useLayers) := by
  have heq : SameTies rules others → ofRules rules = ofRules others := by
    intro hties
    have hrules := (arranges_of_sameTies hclass hperm hties).unique (arranges_ofRules others)
    exact congrArg Sheet.mk hrules
  refine ⟨perm_ofRules_of_perm hclass hperm, priorities_ofRules_of_perm hclass hperm,
    ⟨sameTies_of_eq hclass, heq⟩, ?_⟩
  intro hties useLayers
  rw [heq hties]

/-- A rule without conditions may be collected before or after the rules for print and for wide
screens, which have one priority. If these two change places, the sheet is another one. -/
theorem ofRules_eq_iff_sameTies_plain :
    let plain : Rule := ⟨"x1klgtki", ".x1klgtki\x7bcolor:green\x7d", none, ⟨12⟩⟩
    let print : Rule := ⟨"x1133l2l",
      "@media print\x7b.x1133l2l.x1133l2l\x7bcolor:red\x7d\x7d", none, ⟨200012⟩⟩
    let wide : Rule := ⟨"xuqxrlq",
      "@media (min-width: 100px)\x7b.xuqxrlq.xuqxrlq\x7bcolor:blue\x7d\x7d", none, ⟨200012⟩⟩
    (ofRules [plain, print, wide] = ofRules [print, wide, plain] ∧
      ∀ useLayers, (ofRules [plain, print, wide]).text useLayers =
        (ofRules [print, wide, plain]).text useLayers) ∧
      (ofRules [plain, print, wide]).rules.Perm (ofRules [wide, print, plain]).rules ∧
      ofRules [plain, print, wide] ≠ ofRules [wide, print, plain] := by
  intro plain print wide
  have hclass : ∀ r ∈ [plain, print, wide], ∀ s ∈ [plain, print, wide],
      r.className = s.className → r = s := by
    decide
  have hties : SameTies [plain, print, wide] [print, wide, plain] := by
    unfold SameTies
    decide
  have hturned : ¬ SameTies [plain, print, wide] [wide, print, plain] := by
    unfold SameTies
    decide
  have hmoved : ([plain] ++ [print, wide]).Perm ([print, wide] ++ [plain]) :=
    List.perm_append_comm
  have hreversed : [plain, print, wide].Perm [wide, print, plain] :=
    (List.reverse_perm [plain, print, wide]).symm
  obtain ⟨-, -, heq, htext⟩ := ofRules_eq_iff_sameTies hmoved hclass
  obtain ⟨hperm, -, hne, -⟩ := ofRules_eq_iff_sameTies hreversed hclass
  exact ⟨⟨heq.2 hties, htext hties⟩, hperm, mt hne.1 hturned⟩

/-- The rules for a colour in print and on wide screens have one priority, so the one that is
collected first comes first in the sheet, and the text depends on the order in which they are
collected. -/
theorem text_ofRules_media_ne :
    let print : Rule := ⟨"x1133l2l",
      "@media print\x7b.x1133l2l.x1133l2l\x7bcolor:red\x7d\x7d", none, ⟨200012⟩⟩
    let wide : Rule := ⟨"xuqxrlq",
      "@media (min-width: 100px)\x7b.xuqxrlq.xuqxrlq\x7bcolor:blue\x7d\x7d", none, ⟨200012⟩⟩
    [print, wide].Perm [wide, print] ∧
      (∀ r ∈ [print, wide], ∀ s ∈ [print, wide], r.className = s.className → r = s) ∧
      ∀ useLayers,
        (ofRules [print, wide]).text useLayers ≠ (ofRules [wide, print]).text useLayers := by
  intro print wide
  have hsheet : ofRules [print, wide] = ⟨[print, wide]⟩ ∧
      ofRules [wide, print] = ⟨[wide, print]⟩ :=
    ⟨ofRules_eq_of_pairwise (by decide), ofRules_eq_of_pairwise (by decide)⟩
  refine ⟨List.Perm.swap wide print [], by decide, ?_⟩
  rw [hsheet.1, hsheet.2]
  decide +kernel

end Sheet

end AtomicCss
