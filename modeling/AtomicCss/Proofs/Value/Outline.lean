import AtomicCss.Proofs.Value.Boundaries

/-!
# The outline of a value

The outline of a value is what its tokens are, at every depth and without the gaps. To bring nodes
into canonical form never changes their outline. Their text is another matter: it can be read, but a
number may have run on into its neighbour, and `1+5` becomes `15`.

* `Outline`, `Node.outlines`: the kinds of the tokens of a value.
* `outlines_normalNodes`: canonical nodes have the outline of the nodes that they come from.
* `parseValue_normalValue`: a canonical value is read as its canonical nodes if and only if every
  number in it stays a token.
-/

namespace AtomicCss

/-- The kind of a token; a call is known by its name and the kinds of its arguments. -/
inductive Outline where
  /-- A bare word. -/
  | word
  /-- A number with its unit. -/
  | number
  /-- A string in quotes. -/
  | string
  /-- A separator. -/
  | divider (mark : Char)
  /-- A call. -/
  | call (name : String) (args : List Outline)

namespace Node

mutual

/-- The kind of a node; a gap has none. -/
def outline : Node → List Outline
  | .word _ => [.word]
  | .number _ => [.number]
  | .string _ _ => [.string]
  | .call name args _ => [.call name (outlines args)]
  | .space => []
  | .divider mark => [.divider mark]

/-- The kinds of nodes in a row. -/
def outlines : List Node → List Outline
  | [] => []
  | n :: ns => outline n ++ outlines ns

end

/-- Gaps do not count. -/
theorem outlines_collapse (ns : List Node) (joins pending : Bool) :
    outlines (collapse joins pending ns) = outlines ns := by
  induction ns using listInduction generalizing joins pending with
  | nil => rfl
  | cons n ns hargs ih =>
    by_cases hitem : n.isItem = true
    · have hnode : outline (collapseNode n) = outline n := by
        cases n with
        | call name args closed => rw [collapseNode, outline, outline, hargs name args closed rfl]
        | _ => rfl
      rw [collapse_item hitem]
      split <;> simp [outlines, outline, hnode, ih]
    · cases n with
      | space => exact ih ..
      | divider mark => rw [collapse, outlines, outlines, ih]
      | _ => exact absurd rfl hitem

/-- A node that is written in another way is of the same kind. -/
theorem outlines_rewriteNode (f : Bool → Dimension → Dimension) (dash inMath : Bool)
    (ns : List Node) : outlines (ns.map (rewriteNode f dash inMath)) = outlines ns := by
  induction ns using listInduction generalizing dash inMath with
  | nil => rfl
  | cons n ns hargs ih =>
    rw [List.map_cons, outlines, outlines, ih]
    congr 1
    cases n with
    | call name args closed => rw [rewriteNode_call, outline, outline, hargs name args closed rfl]
    | string quote content =>
      rw [rewriteNode_string, doubleQuotedNode]
      split <;> rfl
    | _ => simp [outline]

end Node

open Node

theorem outlines_normalNodes (options : Options) (property : String) (ns : List Node) :
    outlines (normalNodes options property ns) = outlines ns := by
  rw [normalNodes_eq_map, outlines_rewriteNode, outlines_collapse]

theorem shows_canonicalNumber (options : Options) (property : String) :
    Shows (canonicalNumber options property) := by
  intro inMath d hd
  have hnormal := Dimension.isShown_normalDimension inMath hd
  unfold canonicalNumber
  split
  · exact hnormal.toRem
  · exact hnormal

/-- A canonical value can be read. It is read as its canonical nodes, and so with the outline of the
raw value, if and only if in the raw value no number runs on and none becomes infinite. -/
theorem parseValue_normalValue {options : Options} {property raw v : String}
    (hproperty : Property.textual.contains property = false)
    (h : normalValue options property raw = .ok v) :
    ∃ nodes ms, parseValue raw = .ok nodes ∧ parseValue v = .ok ms ∧
      (KeepsTokens (canonicalNumber options property) false nodes →
        outlines ms = outlines nodes) ∧
      (ms = normalNodes options property nodes ↔
        KeepsTokens (canonicalNumber options property) false nodes) := by
  obtain ⟨-, nodes, hparse, hclosed, rfl⟩ := (normalValue_eq_ok hproperty).1 h
  have hshows := shows_canonicalNumber options property
  have hfit : AllFit (lookahead []) (collapse false false nodes) :=
    ((parseValue_eq_ok.1 hparse).allFit (.inl rfl)).1.collapse_of_ends ends_none false false
  -- Whatever the numbers have become, the text can be read, with no run pending at first.
  obtain ⟨ms, hms⟩ := exists_reads_rewriteNode hshows (Property.listing.contains property) false
    hfit ((anyUnclosed_collapse nodes false false).trans hclosed) (.inl rfl) (isPending_nil _)
  have hread : parseValue (render (normalNodes options property nodes)) = .ok ms := by
    rw [parseValue_eq_ok, toList_render, normalNodes_eq_map]
    simpa using hms
  have hiff : ms = normalNodes options property nodes ↔
      KeepsTokens (canonicalNumber options property) false nodes := by
    rw [← keepsTokens_collapse, ← allFit_rewriteNode_iff hshows _ false hfit ends_none,
      ← normalNodes_eq_map, ← parseValue_render_iff, hread]
    exact ⟨congrArg _, Except.ok.inj⟩
  refine ⟨nodes, ms, hparse, hread, fun hkeeps => ?_, hiff⟩
  rw [hiff.2 hkeeps, outlines_normalNodes]

/-- The plus sign was all that stood between two numbers. -/
theorem parseValue_normalValue_plus :
    normalValue {} "--gap" "1+5" = .ok "15" ∧
      ∃ nodes ms, parseValue "1+5" = .ok nodes ∧ parseValue "15" = .ok ms ∧
        outlines nodes = [.number, .number] ∧ outlines ms = [.number] ∧
        ¬ KeepsTokens (canonicalNumber {} "--gap") false nodes := by
  have hraw : parseValue "1+5" = .ok [.number ⟨"1", ""⟩, .number ⟨"+5", ""⟩] := by cbv
  have hv : parseValue "15" = .ok [.number ⟨"15", ""⟩] := by cbv
  have h : normalValue {} "--gap" "1+5" = .ok "15" :=
    (normalValue_eq_ok (by decide)).2 ⟨by decide, _, hraw, by decide, by decide⟩
  obtain ⟨nodes, ms, hnodes, hms, hkeeps, -⟩ := parseValue_normalValue (by decide) h
  obtain rfl := Except.ok.inj (hraw.symm.trans hnodes)
  obtain rfl := Except.ok.inj (hv.symm.trans hms)
  exact ⟨h, _, _, hraw, hv, rfl, rfl, fun hkept => by cases hkeeps hkept⟩

end AtomicCss
