import AtomicCss.Proofs.Sheet.Order
import AtomicCss.Proofs.Text

/-!
# Layers of a sheet

Writing a sheet in layers does not change the order of its rules: the layer of a rule rises with its
priority, so the layers, one after the other, have the rules of the sheet in order.

* `Priority.index_layer_le`: a higher priority has no lower layer.
* `Sheet.Divides`: the conditions on the layers of a sheet, which `Sheet.divides_layers` meets.
* `Sheet.flat_eq_intercalate`: the flat text is that of the layers, one after the other.
* `Sheet.layers_ofRules_agree`: the sheet in layers beside the flat sheet.
-/

namespace AtomicCss

/-! ### The layer of a priority -/

namespace Layer

/-- The place of the layer of a score is the number of borders that the score reaches. -/
theorem index_ofScore (score : Nat) :
    (ofScore score).index = (if genericWeight ≤ score then 1 else 0) +
      (if pseudoElementWeight ≤ score then 1 else 0) +
        (if selectorLimit < score then 1 else 0) := by
  have hborders : genericWeight ≤ pseudoElementWeight ∧ pseudoElementWeight ≤ selectorLimit := by
    decide
  unfold ofScore
  by_cases hgeneric : score < genericWeight
  · rw [if_pos hgeneric, if_neg (by omega), if_neg (by omega), if_neg (by omega)]
    rfl
  · rw [if_neg hgeneric, if_pos (Nat.le_of_not_lt hgeneric)]
    by_cases helement : score < pseudoElementWeight
    · rw [if_pos helement, if_neg (by omega), if_neg (by omega)]
      rfl
    · rw [if_neg helement, if_pos (Nat.le_of_not_lt helement)]
      by_cases hlimit : score ≤ selectorLimit
      · rw [if_pos hlimit, if_neg (Nat.not_lt_of_le hlimit)]
        rfl
      · rw [if_neg hlimit, if_pos (Nat.lt_of_not_le hlimit)]
        rfl

/-- A higher score is never in a lower layer. -/
theorem index_ofScore_le {a b : Nat} (h : a ≤ b) : (ofScore a).index ≤ (ofScore b).index := by
  -- A border that the lower score reaches is reached by the higher one.
  have hborder (border : Nat) : (if border ≤ a then 1 else 0) ≤ if border ≤ b then 1 else 0 := by
    split
    case isTrue hreached => exact Nat.le_of_eq (if_pos (Nat.le_trans hreached h)).symm
    case isFalse => exact Nat.zero_le _
  rw [index_ofScore, index_ofScore]
  exact Nat.add_le_add (Nat.add_le_add (hborder _) (hborder _)) (hborder _)

theorem mem_all (layer : Layer) : layer ∈ all := by
  cases layer <;> decide

theorem pairwise_all : all.Pairwise (·.index < ·.index) := by
  decide

end Layer

/-- A higher priority has no lower layer. -/
theorem Priority.index_layer_le {p q : Priority} (h : p.value ≤ q.value) :
    p.layer.index ≤ q.layer.index := by
  have hvalue : p.value.toNat ≤ q.value.toNat := UInt32.le_iff_toNat_le.1 h
  exact Layer.index_ofScore_le (Nat.div_le_div_right (Nat.sub_le_sub_right hvalue 10))

/-! ### Lists that are divided by a predicate or a key -/

/-- If whatever meets a condition stands before all that does not, then the two parts of the list
together are the list. -/
theorem filter_append_filter_not {α : Type} {p : α → Bool} {xs : List α}
    (h : xs.Pairwise fun x y => p y → p x) : xs.filter p ++ xs.filter (!p ·) = xs := by
  induction xs with
  | nil => rfl
  | cons x xs ih =>
    obtain ⟨hfirst, hrest⟩ := List.pairwise_cons.1 h
    by_cases hx : p x
    · rw [List.filter_cons_of_pos hx, List.filter_cons_of_neg (by simp [hx]), List.cons_append,
        ih hrest]
    · have hnone : ∀ y ∈ xs, ¬ p y := fun y hy hpy => hx (hfirst y hy hpy)
      rw [List.filter_cons_of_neg hx, List.filter_cons_of_pos (by simpa using hx),
        List.filter_eq_nil_iff.2 hnone, List.nil_append,
        List.filter_eq_self.2 fun y hy => by simpa using hnone y hy]

/-- Rules whose layers rise are those of the first layer, then those of the second, and so on. -/
theorem flatMap_filter_layer : ∀ {layers : List Layer} {rules : List Rule},
    layers.Pairwise (·.index < ·.index) → (∀ r ∈ rules, r.layer ∈ layers) →
      (rules.Pairwise fun r s => r.layer.index ≤ s.layer.index) →
      (layers.flatMap fun layer => rules.filter (·.layer == layer)) = rules
  | [], rules, _, hmem, _ => by
    have hnil : rules = [] := List.eq_nil_iff_forall_not_mem.2 fun r hr => by simpa using hmem r hr
    rw [hnil]
    rfl
  | layer :: layers, rules, hlayers, hmem, hrules => by
    obtain ⟨hfirst, hrest⟩ := List.pairwise_cons.1 hlayers
    have hne : ∀ other ∈ layers, other ≠ layer := by
      rintro other hother rfl
      exact Nat.lt_irrefl _ (hfirst other hother)
    have hrestMem : ∀ r ∈ rules.filter (!·.layer == layer), r.layer ∈ layers := by
      intro r hr
      obtain ⟨hr, hlayer⟩ := List.mem_filter.1 hr
      have hnot : r.layer ≠ layer := by simpa using hlayer
      exact (List.mem_cons.1 (hmem r hr)).resolve_left hnot
    -- The other layers find their rules among those that are not of the first layer.
    have hothers : (layers.flatMap fun other => rules.filter (·.layer == other)) =
        rules.filter (!·.layer == layer) := by
      refine Eq.trans (List.flatMap_congr fun other hother => ?_)
        (flatMap_filter_layer hrest hrestMem (hrules.sublist List.filter_sublist))
      rw [List.filter_filter]
      refine List.filter_congr fun r _ => ?_
      by_cases hr : r.layer = other
      · simp [hr, hne other hother]
      · simp [hr]
    rw [List.flatMap_cons, hothers]
    refine filter_append_filter_not (hrules.imp_of_mem ?_)
    intro r s hr _ hle hs
    have hs : s.layer = layer := by simpa using hs
    rcases List.mem_cons.1 (hmem r hr) with hlayer | hother
    · simpa using hlayer
    · have hlt := hfirst _ hother
      rw [hs] at hle
      exact absurd hle (Nat.not_le_of_lt hlt)

namespace Sheet

/-! ### The layers of a sheet -/

variable {s : Sheet}

/-- The conditions on the layers of a sheet with the given rules. -/
structure Divides (rules : List Rule) (layers : List (Layer × List Rule)) : Prop where
  /-- The layers, one after the other, have the rules in order. -/
  flatMap_eq : layers.flatMap Prod.snd = rules
  /-- No layer is empty. -/
  ne_nil : ∀ bucket ∈ layers, bucket.2 ≠ []
  /-- The layers are in cascade order, none twice. -/
  pairwise : (layers.map Prod.fst).Pairwise (·.index < ·.index)
  /-- Each rule is in its layer. -/
  layer_eq : ∀ bucket ∈ layers, ∀ r ∈ bucket.2, r.layer = bucket.1

/-- The layers of a sheet are those that have rules, with their rules. -/
theorem mem_layers {bucket : Layer × List Rule} :
    bucket ∈ s.layers ↔ s.inLayer bucket.1 = bucket.2 ∧ bucket.2 ≠ [] := by
  unfold layers
  rw [List.mem_filter, List.mem_map]
  constructor
  · rintro ⟨⟨layer, -, rfl⟩, hne⟩
    exact ⟨rfl, by simpa using hne⟩
  · rintro ⟨hrules, hne⟩
    exact ⟨⟨bucket.1, Layer.mem_all _, Prod.ext rfl hrules⟩, by simpa using hne⟩

/-- Leaving out empty layers leaves out no rule. -/
theorem flatMap_layers (s : Sheet) :
    s.layers.flatMap Prod.snd = Layer.all.flatMap s.inLayer := by
  unfold layers
  rw [List.flatMap_def, List.flatMap_def]
  have hbuckets : ((Layer.all.map fun layer => (layer, s.inLayer layer)).filter
      (!·.2.isEmpty)).map Prod.snd = (Layer.all.map s.inLayer).filter (!·.isEmpty) := by
    rw [List.filter_map, List.filter_map, List.map_map]
    rfl
  rw [hbuckets, List.flatten_filter_not_isEmpty]

/-- A sheet in the order of the priorities is divided by its layers. -/
theorem divides_layers (h : s.rules.Pairwise fun r t => r.priority.value ≤ t.priority.value) :
    Divides s.rules s.layers where
  flatMap_eq := by
    rw [flatMap_layers]
    exact flatMap_filter_layer Layer.pairwise_all (fun r _ => Layer.mem_all r.layer)
      (h.imp Priority.index_layer_le)
  ne_nil bucket hbucket := (mem_layers.1 hbucket).2
  pairwise := by
    refine Layer.pairwise_all.sublist ?_
    have hsub := (List.filter_sublist (p := fun bucket : Layer × List Rule => !bucket.2.isEmpty)
      (l := Layer.all.map fun layer => (layer, s.inLayer layer))).map Prod.fst
    rwa [List.map_map] at hsub
  layer_eq bucket hbucket r hr := by
    rw [← (mem_layers.1 hbucket).1] at hr
    simpa using (List.mem_filter.1 hr).2

/-! ### The texts of a sheet -/

theorem layerText_eq (layer : Layer) (rules : List Rule) :
    layerText layer rules =
      "\n@layer " ++ layer.name ++ "\x7b\n" ++ rulesText rules ++ "\n\x7d" := by
  apply String.toList_inj.1
  simp [layerText, block]

/-- A sheet has no layers exactly if it has no rules. -/
theorem layers_isEmpty (h : Divides s.rules s.layers) : s.layers.isEmpty ↔ s.rules = [] := by
  rw [List.isEmpty_iff]
  constructor
  · intro hnil
    rw [← h.flatMap_eq, hnil]
    rfl
  · intro hnil
    refine List.eq_nil_iff_forall_not_mem.2 fun bucket hbucket => h.ne_nil bucket hbucket ?_
    exact List.flatMap_eq_nil_iff.1 (h.flatMap_eq.trans hnil) bucket hbucket

/-- The texts of the layers, one after the other, are those of the sheet. -/
theorem flatMap_texts_layers (h : Divides s.rules s.layers) :
    (s.layers.flatMap fun bucket => bucket.2.flatMap Rule.texts) = s.rules.flatMap Rule.texts := by
  rw [← List.flatMap_assoc, h.flatMap_eq]

/-- The flat text is that of the layers, one after the other. -/
theorem flat_eq_intercalate (h : Divides s.rules s.layers) :
    s.flat = String.intercalate "\n" (s.layers.map fun bucket => rulesText bucket.2) := by
  have hlines : ∀ lines ∈ s.layers.map (fun bucket => bucket.2.flatMap Rule.texts), lines ≠ [] := by
    intro lines hlines hnil
    obtain ⟨bucket, hbucket, rfl⟩ := List.mem_map.1 hlines
    obtain ⟨r, hr⟩ := List.exists_mem_of_ne_nil _ (h.ne_nil bucket hbucket)
    exact absurd (List.flatMap_eq_nil_iff.1 hnil r hr) (List.cons_ne_nil _ _)
  unfold flat rulesText
  rw [← flatMap_texts_layers h, List.flatMap_def, Text.intercalate_flatten hlines, List.map_map]
  rfl

/-- The layers of a sheet are not empty, in cascade order and each with rules of its own, and one
after the other they have the rules of the sheet in order. In layers the text of the sheet is empty,
or the layers are named in one statement and follow in this order, each in a block, and the texts in
the blocks are those of the flat sheet. -/
theorem layers_ofRules_agree (rules : List Rule) :
    let s := ofRules rules
    Divides s.rules s.layers ∧
      s.text true =
        (if s.rules = [] then ""
        else
          "@layer " ++ String.intercalate ", " (s.layers.map fun bucket => bucket.1.name) ++ ";" ++
            String.join (s.layers.map fun bucket =>
              "\n@layer " ++ bucket.1.name ++ "\x7b\n" ++
                String.intercalate "\n" (bucket.2.flatMap Rule.texts) ++ "\n\x7d")) ∧
      (s.layers.flatMap fun bucket => bucket.2.flatMap Rule.texts) = s.rules.flatMap Rule.texts ∧
      s.text false = String.intercalate "\n" (s.rules.flatMap Rule.texts) ∧
      s.text false = String.intercalate "\n"
        (s.layers.map fun bucket => String.intercalate "\n" (bucket.2.flatMap Rule.texts)) := by
  intro s
  -- Layers follow priorities, so that cutting the sorted rules by layers keeps their order.
  have hdivides : Divides s.rules s.layers := divides_layers (pairwise_ofRules rules)
  refine ⟨hdivides, ?_, flatMap_texts_layers hdivides, rfl, flat_eq_intercalate hdivides⟩
  have htext : s.text true = s.layered := rfl
  rw [htext, layered]
  by_cases hempty : s.rules = []
  · rw [if_pos ((layers_isEmpty hdivides).2 hempty), if_pos hempty]
  · rw [if_neg (mt (layers_isEmpty hdivides).1 hempty), if_neg hempty, layerStatement, List.map_map]
    simp only [layerText_eq]
    rfl

end Sheet

end AtomicCss
