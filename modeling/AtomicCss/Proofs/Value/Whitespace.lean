import AtomicCss.Proofs.Value.Outline

/-!
# How gaps are spelled

A gap at an end of a list of nodes or next to a separator is idle: two values that differ only in
idle gaps are one value. Collapsing leaves out exactly the idle gaps of nodes that were read, among
which no two gaps stand side by side, so the outcome depends on nothing but the nodes without their
idle gaps. A canonical value has no idle gaps, and none appear when it is read again, although a
number in it may have run on.

* `Node.dropIdle`: nodes without idle gaps, at any depth.
* `Node.dropIdle_eq_collapse`: this is what collapsing does to nodes that were read.
* `isBlankText_eq`: a value is blank if it holds idle gaps only.
* `normalValue_of_parseValue`: the outcome, as a function of the nodes without idle gaps.
* `normalValue_whitespace`: values that differ in idle gaps have the same outcome, and canonical
  values have no idle gaps.
-/

namespace AtomicCss

namespace Node

/-! ### Idle gaps -/

/-- Whether a gap next to this node is idle; there is no node at the ends. -/
def idles : Option Node → Bool
  | none | some (.divider _) => true
  | _ => false

mutual

/-- The node without the idle gaps in its arguments. -/
def dropIdleNode : Node → Node
  | .call name args closed => .call name (dropIdle none args) closed
  | n => n

/-- The nodes without idle gaps; `before` is the node before them. -/
def dropIdle (before : Option Node) : List Node → List Node
  | [] => []
  | n :: ns =>
    if n.isSpace && (idles before || idles ns.head?) then dropIdle (some n) ns
    else dropIdleNode n :: dropIdle (some n) ns

end

theorem dropIdle_of_not_isSpace {n : Node} (h : n.isSpace = false) (before : Option Node)
    (ns : List Node) :
    dropIdle before (n :: ns) = dropIdleNode n :: dropIdle (some n) ns := by
  rw [dropIdle, h, Bool.false_and, if_neg (by simp)]

theorem isSpace_of_isItem {n : Node} (h : n.isItem = true) : n.isSpace = false := by
  cases n with
  | space => cases h
  | _ => rfl

/-- A gap before an item is kept if and only if there is an item before it too. -/
theorem collapse_space_item {m : Node} (hm : m.isItem = true) (joins : Bool) (ns : List Node) :
    collapse joins false (.space :: m :: ns) =
      (if joins then [.space] else []) ++ collapse false false (m :: ns) := by
  rw [collapse, collapse_item hm, collapse_item hm, Bool.and_true]
  rfl

/-- Of nodes that are tokens side by side, collapsing leaves out the idle gaps. -/
theorem dropIdle_eq_collapse {next : Option Char} {ns : List Node} {before : Option Node}
    (h : AllFit next ns) (hbefore : before = some .space → ns.head?.any isSpace = false) :
    dropIdle before ns = collapse (before.any isItem) false ns := by
  induction ns using listInduction generalizing next before with
  | nil => rfl
  | cons n ns hargs ih =>
    obtain ⟨hn, hns⟩ := h
    by_cases hitem : n.isItem = true
    · have hnode : dropIdleNode n = collapseNode n := by
        cases n with
        | call name args closed =>
          obtain ⟨-, -, hbody⟩ := hn
          rw [dropIdleNode, collapseNode]
          split at hbody
          · obtain ⟨body, rfl, -⟩ := hbody
            rfl
          · rw [hargs name args closed rfl hbody (by simp)]
            rfl
        | _ => rfl
      rw [dropIdle_of_not_isSpace (isSpace_of_isItem hitem), collapse_item hitem, hnode,
        ih hns (by rintro ⟨⟩; cases hitem), Option.any_some, hitem, Bool.and_false]
      rfl
    · cases n with
      | divider mark =>
        rw [dropIdle_of_not_isSpace rfl, ih hns (by rintro ⟨⟩)]
        rfl
      | space =>
        -- Two gaps never stand side by side, since the reader takes them for one.
        have hhead : ns.head?.any isSpace = false := by
          cases ns with
          | nil => rfl
          | cons m ns =>
            cases m with
            | space => exact absurd rfl hn
            | _ => rfl
        have hdrop : dropIdle (some .space) ns = collapse false false ns := ih hns fun _ => hhead
        cases ns with
        | nil => simp [dropIdle, idles, isSpace, collapse]
        | cons m ns =>
          by_cases hm : m.isItem = true
          · -- The gap is idle if a separator or nothing is before it.
            rw [collapse_space_item hm, dropIdle, hdrop]
            cases before with
            | none => rfl
            | some b =>
              cases b with
              | divider mark => rfl
              | space => cases hbefore rfl
              | _ =>
                cases m with
                | space | divider mark => cases hm
                | _ => rfl
          · cases m with
            | space => cases hhead
            | divider mark =>
              rw [dropIdle, hdrop]
              simp [idles, isSpace, collapse]
            | _ => exact absurd rfl hm
      | _ => exact absurd rfl hitem

theorem collapse_of_forall_isSpace {ns : List Node} (h : ∀ n ∈ ns, n.isSpace = true)
    (joins pending : Bool) : collapse joins pending ns = [] := by
  induction ns generalizing pending with
  | nil => rfl
  | cons n ns ih =>
    obtain ⟨hn, hns⟩ := List.forall_mem_cons.1 h
    cases n with
    | space => exact ih hns true
    | _ => cases hn

end Node

open Node

/-! ### Outcomes -/

/-- In a value that was read, the spaces that are dropped are the idle ones. -/
theorem dropIdle_of_parseValue {raw : String} {ns : List Node} (h : parseValue raw = .ok ns) :
    dropIdle none ns = collapse false false ns :=
  dropIdle_eq_collapse ((parseValue_eq_ok.1 h).allFit (.inl rfl)).1 (by simp)

/-- A value is blank if and only if all its gaps are idle and it has nothing else. -/
theorem isBlankText_eq {raw : String} {ns : List Node} (h : parseValue raw = .ok ns) :
    Text.isBlankText raw = (collapse false false ns).isEmpty := by
  rw [Bool.eq_iff_iff, List.isEmpty_iff]
  constructor
  · intro hblank
    have hreads := parseValue_eq_ok.1 h
    have hchars : ∀ c ∈ charsAll ns, Text.isBlank c = true := by
      intro c hc
      by_cases hgap : isGap c = true
      · rcases isGap_cases hgap with rfl | rfl | rfl | rfl <;> decide
      · have hmem : c ∈ withoutGaps raw.toList := by
          rw [hreads.withoutGaps_eq, List.append_nil]
          exact List.mem_filter.2 ⟨hc, by simpa using hgap⟩
        exact List.all_eq_true.1 hblank c (List.mem_filter.1 hmem).1
    refine collapse_of_forall_isSpace ?_ false false
    have hfits := (hreads.allFit (.inl rfl)).1
    -- A node that is no gap begins with a character that is not blank.
    clear h hreads hblank
    induction ns with
    | nil => simp
    | cons n ns ih =>
      refine List.forall_mem_cons.2 ⟨?_, ih (fun c hc => hchars c (by simp [hc])) hfits.2⟩
      cases hn : n.isSpace with
      | true => rfl
      | false =>
        obtain ⟨c, cs, hcs, hc⟩ := hfits.1.exists_head_not_blank hn
        rw [hchars c (by simp [hcs])] at hc
        cases hc
  · intro hnil
    cases hblank : Text.isBlankText raw with
    | true => rfl
    | false => exact absurd hnil (collapse_ne_nil h hblank)

/-- Idle spaces do not show in the normal nodes. -/
theorem normalNodes_collapse (options : Options) (property : String) (ns : List Node) :
    normalNodes options property (collapse false false ns) = normalNodes options property ns := by
  rw [normalNodes_eq_map, normalNodes_eq_map, (spaced_collapse ns false false).collapse_eq]

/-- What becomes of a value that can be read, as a function of its nodes without idle gaps. -/
theorem normalValue_of_parseValue {options : Options} {property raw : String} {ns : List Node}
    (hproperty : Property.textual.contains property = false) (h : parseValue raw = .ok ns) :
    normalValue options property raw =
      if (dropIdle none ns).isEmpty then .error (.malformed property raw .emptyValue)
      else if anyUnclosed (dropIdle none ns) then .error (.malformed property raw .unclosedCall)
      else .ok (render (normalNodes options property (dropIdle none ns))) := by
  rw [dropIdle_of_parseValue h, anyUnclosed_collapse, normalNodes_collapse, ← isBlankText_eq h]
  cases hblank : Text.isBlankText raw with
  | true => rw [normalValue_of_isBlankText hproperty hblank, if_pos rfl]
  | false =>
    rw [normalValue_of_readClosed hproperty hblank, readClosed_of_ok h]
    cases anyUnclosed ns <;> rfl

/-- A canonical value is the text of the nodes that it is read as. There are no gaps but those that
are needed, and numbers with a plus sign stand behind other numbers only. -/
theorem exists_nodes_of_normalValue {options : Options} {property raw v : String}
    (hproperty : Property.textual.contains property = false)
    (h : normalValue options property raw = .ok v) :
    ∃ ms, parseValue v = .ok ms ∧ render ms = v ∧ Spaced false ms ∧ PlusBehindNumber false ms := by
  obtain ⟨-, nodes, hparse, hclosed, rfl⟩ := (normalValue_eq_ok hproperty).1 h
  have hfit : AllFit (lookahead []) (collapse false false nodes) := allFit_collapse hparse
  obtain ⟨ms, hms, hjoins⟩ := exists_reads_rejoins (shows_canonicalNumber options property)
    (Property.listing.contains property) false hfit
    ((anyUnclosed_collapse nodes false false).trans hclosed) (.inl rfl) (isPending_nil _)
  refine ⟨ms, ?_, ?_, hjoins.spaced (spaced_collapse nodes false false), hjoins.plus⟩
  · rw [parseValue_eq_ok, toList_render, normalNodes_eq_map]
    simpa using hms
  · rw [render, hjoins.chars, normalNodes_eq_map]
    rfl

/-- A normal value can be read, and has no idle spaces. -/
theorem exists_spaced_of_normalValue {options : Options} {property raw v : String}
    (hproperty : Property.textual.contains property = false)
    (h : normalValue options property raw = .ok v) :
    ∃ ms, parseValue v = .ok ms ∧ Spaced false ms := by
  obtain ⟨ms, hparse, -, hspaced, -⟩ := exists_nodes_of_normalValue hproperty h
  exact ⟨ms, hparse, hspaced⟩

/-- Values that differ only in idle gaps have the same canonical form, or they are malformed for the
same reason; and in a canonical value gaps stand between items only. -/
theorem normalValue_whitespace {options : Options} {property : String}
    (hproperty : Property.textual.contains property = false) :
    (∀ r₁ r₂ ns₁ ns₂, parseValue r₁ = .ok ns₁ → parseValue r₂ = .ok ns₂ →
      dropIdle none ns₁ = dropIdle none ns₂ →
      (∃ v, normalValue options property r₁ = .ok v ∧ normalValue options property r₂ = .ok v) ∨
      ∃ reason, normalValue options property r₁ = .error (.malformed property r₁ reason) ∧
        normalValue options property r₂ = .error (.malformed property r₂ reason)) ∧
    ∀ raw v, normalValue options property raw = .ok v →
      ∃ ms, parseValue v = .ok ms ∧ Spaced false ms := by
  refine ⟨fun r₁ r₂ ns₁ ns₂ h₁ h₂ hsame => ?_, fun raw v => exists_spaced_of_normalValue hproperty⟩
  rw [normalValue_of_parseValue hproperty h₁, normalValue_of_parseValue hproperty h₂, hsame]
  cases (dropIdle none ns₂).isEmpty with
  | true => exact .inr ⟨_, rfl, rfl⟩
  | false =>
    cases anyUnclosed (dropIdle none ns₂) with
    | true => exact .inr ⟨_, rfl, rfl⟩
    | false => exact .inl ⟨_, rfl, rfl⟩

/-- Gaps around a separator and at the ends of the arguments, and one that is needed. -/
theorem normalValue_whitespace_call :
    let r₁ := " f( a  ,b )/ 1 c"
    let r₂ := "f(a, b)/1\tc"
    (∃ v, normalValue {} "width" r₁ = .ok v ∧ normalValue {} "width" r₂ = .ok v) ∧
      ∃ ms, parseValue "f(a,b)/1 c" = .ok ms ∧ Spaced false ms := by
  intro r₁ r₂
  have h₁ : parseValue r₁ = .ok [.space, .call "f" [.space, .word "a", .space, .divider ',',
      .word "b", .space] true, .divider '/', .space, .number ⟨"1", ""⟩, .space, .word "c"] := by
    cbv
  have h₂ : parseValue r₂ = .ok [.call "f" [.word "a", .divider ',', .space, .word "b"] true,
      .divider '/', .number ⟨"1", ""⟩, .space, .word "c"] := by
    cbv
  have hvalue : normalValue {} "width" r₂ = .ok "f(a,b)/1 c" :=
    (normalValue_eq_ok (by decide)).2 ⟨by decide, _, h₂, by decide, by decide⟩
  obtain ⟨hsame, hspaced⟩ := @normalValue_whitespace {} "width" (by decide)
  refine ⟨?_, hspaced r₂ _ hvalue⟩
  rcases hsame r₁ r₂ _ _ h₁ h₂ rfl with h | ⟨reason, -, herror⟩
  · exact h
  · rw [hvalue] at herror
    cases herror

end AtomicCss
