import AtomicCss.Construct.Keyframes
import AtomicCss.Construct.PositionTry
import AtomicCss.Construct.ViewTransition
import AtomicCss.Proofs.Outcome
import AtomicCss.Proofs.Sheet
import AtomicCss.Proofs.Text

/-!
# What the names of constructs tell

Animations, alternatives for anchored positions and classes of view transitions are named after a
text that shows their declarations from left to right. The name does not tell how they are written
from right to left, nor where the parts of a view transition end.

* `namedRule_eq_iff`: a rule tells its texts for both directions.
* `parts_eq_of_rows_eq`: the parts of a view transition, from the text that names it and the text of
  its rule.
* `constructs_eq_iff`: constructs named after one text are the same exactly when they are the same
  from right to left, or have the same parts.
-/

namespace AtomicCss

/-! ### Named rules -/

/-- Blocks under one head differ only in what they hold. -/
theorem block_inj {head s t : String} (h : block head s = block head t) : s = t := by
  have hchars := congrArg String.toList h
  simp only [block, String.toList_append, List.append_assoc, List.append_cancel_left_eq,
    List.append_cancel_right_eq] at hchars
  exact String.toList_inj.1 hchars

/-- A rule tells its texts for both directions. -/
theorem namedRule_eq_iff (name : String) (s t : Direction → String) :
    namedRule name s = namedRule name t ↔ s .ltr = t .ltr ∧ s .rtl = t .rtl := by
  constructor
  · intro h
    have hltr : s .ltr = t .ltr := congrArg Rule.ltr h
    have hrtl := congrArg Rule.rtl h
    refine ⟨hltr, ?_⟩
    simp only [namedRule, hltr] at hrtl
    -- A text from right to left is left out exactly if it is the one from left to right.
    by_cases hs : s .rtl = t .ltr
    · by_cases ht : t .rtl = t .ltr
      · rw [hs, ht]
      · simp [hs, ht] at hrtl
    · by_cases ht : t .rtl = t .ltr
      · simp [hs, ht] at hrtl
      · simpa [hs, ht] using hrtl
  · rintro ⟨hltr, hrtl⟩
    simp only [namedRule, hltr, hrtl]

namespace Named

/-- Whether a sheet that has the rule of the first construct has the rule of the second, once that
is added. -/
def KeptBeside (m n : Named) : Prop :=
  ∀ rules, m.rule ∈ (Sheet.ofRules rules).rules →
    n.rule ∈ (Sheet.ofRules (rules ++ [n.rule])).rules

/-- A construct is kept behind another of its name only if their rules are the same. -/
theorem keptBeside_iff {m n : Named} (h : n.rule.className = m.rule.className) :
    m.KeptBeside n ↔ n.rule = m.rule := by
  constructor
  · intro hkept
    have hfirst : m.rule ∈ (Sheet.ofRules [m.rule]).rules :=
      Sheet.mem_ofRules.2 (by simp [firstByClass])
    exact (Sheet.mem_ofRules_concat_iff hfirst h).1 (hkept _ hfirst)
  · intro hsame rules hrule
    exact (Sheet.mem_ofRules_concat_iff hrule h).2 hsame

/-- Constructs that are named alike are kept beside each other exactly when they are the same. -/
theorem eq_iff_and_keptBeside_iff {name : String} {s t : Direction → String} {P : Prop}
    (h : (s .ltr = t .ltr ∧ s .rtl = t .rtl) ↔ P) :
    ((⟨name, namedRule name s⟩ : Named) = ⟨name, namedRule name t⟩ ↔ P) ∧
      ((⟨name, namedRule name s⟩ : Named).KeptBeside ⟨name, namedRule name t⟩ ↔ P) := by
  refine ⟨?_, ?_⟩
  · rw [Named.mk.injEq, namedRule_eq_iff, h]
    simp
  · have hkept := keptBeside_iff (m := ⟨name, namedRule name s⟩) (n := ⟨name, namedRule name t⟩) rfl
    rw [hkept, eq_comm, namedRule_eq_iff, h]

/-- Constructs of one block that are named alike and written alike from left to right. -/
theorem block_eq_iff {name head : String} {s t : Direction → String} (h : s .ltr = t .ltr) :
    ((⟨name, namedRule name fun direction => block head (s direction)⟩ : Named) =
        ⟨name, namedRule name fun direction => block head (t direction)⟩ ↔ s .rtl = t .rtl) ∧
      ((⟨name, namedRule name fun direction => block head (s direction)⟩ : Named).KeptBeside
        ⟨name, namedRule name fun direction => block head (t direction)⟩ ↔ s .rtl = t .rtl) := by
  refine eq_iff_and_keptBeside_iff ⟨fun hboth => block_inj hboth.2, fun hrtl => ?_⟩
  exact ⟨by rw [h], by rw [hrtl]⟩

end Named

/-! ### The parts of a view transition -/

/-- Parts in a row, each with what stands before its block. -/
def partRow (head : String → List Char) (parts : List (String × String)) : List Char :=
  parts.flatMap fun part => head part.1 ++ '\x7b' :: (part.2.toList ++ ['\x7d'])

theorem partRow_cons (head : String → List Char) (part : String × String)
    (parts : List (String × String)) :
    partRow head (part :: parts) =
      head part.1 ++ '\x7b' :: (part.2.toList ++ '\x7d' :: partRow head parts) := by
  simp [partRow]

/-- The digested text of a transition is the row of its parts. -/
theorem toList_transitionText (parts : List (String × String)) :
    (transitionText parts).toList = "view-transition:".toList ++ partRow String.toList parts := by
  unfold transitionText
  simp only [partRow, block, String.toList_append, String.toList_join, List.flatMap_map,
    List.append_assoc]
  rfl

/-- The rule of a transition is the same row, with a selector for each part. -/
theorem toList_transitionRule (name : String) (parts : List (String × String)) :
    (String.join (parts.map fun part => block (transitionSelector name part.1) part.2)).toList =
      partRow (fun part => (transitionSelector name part).toList) parts := by
  simp only [partRow, block, String.toList_append, String.toList_join, List.flatMap_map,
    List.append_assoc]
  rfl

/-- The name of a part begins with a letter and holds no brace. -/
theorem transitionParts_spec {part : String} (h : part ∈ transitionParts) :
    '\x7b' ∉ part.toList ∧ part.toList ≠ [] ∧ part.toList.head? ≠ some ':' := by
  revert part
  decide

section Rows

variable {head : String → List Char} {ps qs : List (String × String)}

/-- Two rows of the same parts, one of them with colons, begin with different characters. -/
theorem eq_nil_of_rows_eq_append (hhead : ∀ s, (head s).head? = some ':')
    (hps : ∀ part ∈ ps, part.1 ∈ transitionParts) {w u v : List Char}
    (hplain : partRow String.toList ps = w ++ u) (hcolons : partRow head ps = w ++ v) :
    w = [] := by
  cases ps with
  | nil => exact (List.append_eq_nil_iff.1 hplain.symm).1
  | cons part ps =>
    obtain ⟨-, hne, hletter⟩ := transitionParts_spec (hps part (by simp))
    cases w with
    | nil => rfl
    | cons c w =>
      have hc : some ':' = some c := by
        have hfirst := congrArg List.head? hcolons
        simpa [partRow_cons, List.head?_append, hhead] using hfirst
      have hc' : part.1.toList.head? = some c := by
        obtain ⟨a, cs, hcs⟩ := List.exists_cons_of_ne_nil hne
        have hfirst := congrArg List.head? hplain
        simpa [partRow_cons, List.head?_append, hcs] using hfirst
      exact absurd (hc'.trans hc.symm) hletter

/-- A block does not go on where another one ends: the next part would begin in two ways. -/
theorem eq_nil_of_blocks_eq (hhead : ∀ s, (head s).head? = some ':')
    (hps : ∀ part ∈ ps, part.1 ∈ transitionParts) {z : List Char}
    (hplain : '\x7d' :: partRow String.toList ps = z ++ '\x7d' :: partRow String.toList qs)
    (hcolons : '\x7d' :: partRow head ps = z ++ '\x7d' :: partRow head qs) : z = [] := by
  cases z with
  | nil => rfl
  | cons c z =>
    rw [List.cons_append] at hplain hcolons
    have hnil : z ++ ['\x7d'] = [] := eq_nil_of_rows_eq_append hhead hps
      (by simpa using (List.cons.inj hplain).2) (by simpa using (List.cons.inj hcolons).2)
    simp at hnil

/-- The text that names a view transition and the text of its rule determine its parts. -/
theorem parts_eq_of_rows_eq (hhead : ∀ s, (head s).head? = some ':') :
    ∀ {ps qs : List (String × String)}, (∀ part ∈ ps, part.1 ∈ transitionParts) →
      (∀ part ∈ qs, part.1 ∈ transitionParts) →
      partRow String.toList ps = partRow String.toList qs → partRow head ps = partRow head qs →
        ps = qs
  | [], [], _, _, _, _ => rfl
  | [], q :: qs, _, _, hplain, _ => by simp [partRow] at hplain
  | p :: ps, [], _, _, hplain, _ => by simp [partRow] at hplain
  | (a, x) :: ps, (b, y) :: qs, hps, hqs, hplain, hcolons => by
    have hps' : ∀ part ∈ ps, part.1 ∈ transitionParts := fun part hp => hps part (by simp [hp])
    have hqs' : ∀ part ∈ qs, part.1 ∈ transitionParts := fun part hq => hqs part (by simp [hq])
    rw [partRow_cons, partRow_cons] at hplain hcolons
    obtain ⟨hab, hplain⟩ := Text.append_firstMark_inj
      (transitionParts_spec (hps (a, x) (by simp))).1
      (transitionParts_spec (hqs (b, y) (by simp))).1 hplain
    obtain rfl : a = b := String.toList_inj.1 hab
    have hcolons : x.toList ++ '\x7d' :: partRow head ps = y.toList ++ '\x7d' :: partRow head qs :=
      (List.cons.inj (List.append_cancel_left hcolons)).2
    -- One block is the beginning of the other. If it were shorter, the longer one would go on with
    -- the next part, and that begins with a colon in one row and with a letter in the other.
    have hxy : x.toList = y.toList := by
      rcases List.append_eq_append_iff.1 hplain with ⟨z, hz, hrest⟩ | ⟨z, hz, hrest⟩
      · rw [hz, List.append_assoc] at hcolons
        have hnil := eq_nil_of_blocks_eq hhead hps' hrest (List.append_cancel_left hcolons)
        rw [hz, hnil, List.append_nil]
      · rw [hz, List.append_assoc] at hcolons
        have hnil := eq_nil_of_blocks_eq hhead hqs' hrest (List.append_cancel_left hcolons).symm
        rw [hz, hnil, List.append_nil]
    obtain rfl : x = y := String.toList_inj.1 hxy
    have hrest := parts_eq_of_rows_eq hhead hps' hqs'
      (List.cons.inj (List.append_cancel_left hplain)).2
      (List.cons.inj (List.append_cancel_left hcolons)).2
    rw [hrest]

end Rows

/-! ### Constructs -/

variable {options : Options}

/-- An animation is made from its frames alone once they are compiled. -/
theorem keyframes_eq {f : Definition} {frames : List (String × List Declaration)}
    (h : f.entries.mapM (keyframe options) = .ok frames) :
    keyframes options f = .ok (animation options frames) := by
  rw [keyframes, h]
  rfl

/-- A position alternative is made from its declarations alone. -/
theorem positionTry_eq {f : Definition} {ds : List Declaration}
    (h : blockDeclarations options f.entries = .ok ds) :
    positionTry options f = .ok (positionAlternative options ds) := by
  rw [positionTry, h]
  rfl

theorem viewTransitionClass_eq {f : Definition} {parts : List (String × String)}
    (h : f.entries.mapM (transitionPart options) = .ok parts) :
    viewTransitionClass options f = .ok (transition options parts) := by
  rw [viewTransitionClass, h]
  rfl

/-- The parts that are read are parts of view transitions. -/
theorem mem_transitionParts_of_mapM {entries : List (String × StyleValue)}
    {parts : List (String × String)} (h : entries.mapM (transitionPart options) = .ok parts) :
    ∀ part ∈ parts, part.1 ∈ transitionParts := by
  intro part hpart
  obtain ⟨entry, -, hentry⟩ := Outcome.exists_of_mem_mapM h hpart
  simp only [transitionPart] at hentry
  split at hentry
  case isTrue hknown =>
    obtain ⟨ds, -, rfl⟩ := Outcome.map_eq_ok.1 hentry
    simpa using hknown
  case isFalse => cases hentry

/-- Frames with one left-to-right text share a name; their animations are the same exactly when
the right-to-left texts are, which the name does not see. -/
theorem animation_eq_iff {fs gs : List (String × List Declaration)}
    (h : framesText options fs .ltr = framesText options gs .ltr) :
    (animation options fs).name = (animation options gs).name ∧
      (animation options fs = animation options gs ↔
        framesText options fs .rtl = framesText options gs .rtl) ∧
      ((animation options fs).KeptBeside (animation options gs) ↔
        framesText options fs .rtl = framesText options gs .rtl) := by
  simp only [animation, h, true_and]
  exact Named.block_eq_iff h

/-- The same for position alternatives: the name covers the left-to-right text only. -/
theorem positionAlternative_eq_iff {ds es : List Declaration}
    (h : blockBody options .ltr ds = blockBody options .ltr es) :
    (positionAlternative options ds).name = (positionAlternative options es).name ∧
      (positionAlternative options ds = positionAlternative options es ↔
        blockBody options .rtl ds = blockBody options .rtl es) ∧
      ((positionAlternative options ds).KeptBeside (positionAlternative options es) ↔
        blockBody options .rtl ds = blockBody options .rtl es) := by
  simp only [positionAlternative, h, true_and]
  exact Named.block_eq_iff (s := fun direction => blockBody options direction ds)
    (t := fun direction => blockBody options direction es) h

/-- Transitions with one digested text share a name, and are the same only if their parts are. -/
theorem transition_eq_iff {ps qs : List (String × String)}
    (hps : ∀ part ∈ ps, part.1 ∈ transitionParts) (hqs : ∀ part ∈ qs, part.1 ∈ transitionParts)
    (h : transitionText ps = transitionText qs) :
    (transition options ps).name = (transition options qs).name ∧
      (transition options ps = transition options qs ↔ ps = qs) ∧
      ((transition options ps).KeptBeside (transition options qs) ↔ ps = qs) := by
  have hrow : partRow String.toList ps = partRow String.toList qs := by
    have hchars := congrArg String.toList h
    rw [toList_transitionText, toList_transitionText] at hchars
    exact List.append_cancel_left hchars
  unfold transition
  simp only [h, true_and]
  refine Named.eq_iff_and_keptBeside_iff ⟨fun hboth => ?_, fun hparts => ?_⟩
  · -- The text that names the parts and the text of the rule are rows of the same parts.
    have hrule := congrArg String.toList hboth.1
    rw [toList_transitionRule, toList_transitionRule] at hrule
    refine parts_eq_of_rows_eq (fun part => ?_) hps hqs hrow hrule
    unfold transitionSelector
    simp only [String.toList_append]
    rfl
  · rw [hparts]
    exact ⟨rfl, rfl⟩

/-- Two constructs of one kind that are accepted and named after one text have the same name. They
are the same construct, and a sheet keeps the second one beside the first, exactly if the frames or
the declarations are also written alike from right to left, and for view transitions exactly if the
parts are the same. -/
theorem constructs_eq_iff (options : Options) (f g : Definition) :
    (∀ fs gs, f.entries.mapM (keyframe options) = .ok fs →
      g.entries.mapM (keyframe options) = .ok gs →
      framesText options fs .ltr = framesText options gs .ltr →
        ∃ m n, keyframes options f = .ok m ∧ keyframes options g = .ok n ∧ m.name = n.name ∧
          (m = n ↔ framesText options fs .rtl = framesText options gs .rtl) ∧
          (m.KeptBeside n ↔ framesText options fs .rtl = framesText options gs .rtl)) ∧
    (∀ ds es, blockDeclarations options f.entries = .ok ds →
      blockDeclarations options g.entries = .ok es →
      blockBody options .ltr ds = blockBody options .ltr es →
        ∃ m n, positionTry options f = .ok m ∧ positionTry options g = .ok n ∧ m.name = n.name ∧
          (m = n ↔ blockBody options .rtl ds = blockBody options .rtl es) ∧
          (m.KeptBeside n ↔ blockBody options .rtl ds = blockBody options .rtl es)) ∧
    (∀ ps qs, f.entries.mapM (transitionPart options) = .ok ps →
      g.entries.mapM (transitionPart options) = .ok qs →
      transitionText ps = transitionText qs →
        ∃ m n, viewTransitionClass options f = .ok m ∧ viewTransitionClass options g = .ok n ∧
          m.name = n.name ∧ (m = n ↔ ps = qs) ∧ (m.KeptBeside n ↔ ps = qs)) := by
  refine ⟨fun fs gs hfs hgs h => ?_, fun ds es hds hes h => ?_, fun ps qs hps hqs h => ?_⟩
  · exact ⟨_, _, keyframes_eq hfs, keyframes_eq hgs, animation_eq_iff h⟩
  · exact ⟨_, _, positionTry_eq hds, positionTry_eq hes, positionAlternative_eq_iff h⟩
  · exact ⟨_, _, viewTransitionClass_eq hps, viewTransitionClass_eq hqs,
      transition_eq_iff (mem_transitionParts_of_mapM hps) (mem_transitionParts_of_mapM hqs) h⟩

/-- A margin at the left and a margin at the start are one from left to right, and two blocks are
one if a value holds the braces. So there are different constructs of each kind with one name, of
which a sheet drops the second. -/
theorem constructs_eq_iff_margin :
    let margin (property : String) : StyleValue := .conditional [(property, .number 0)]
    let frame (property : String) : Definition := .ofEntries [("from", margin property)]
    let place (property : String) : Definition := .ofEntries [(property, .number 0)]
    let color (s : String) : StyleValue := .conditional [("color", .text s)]
    let glued : Definition := .ofEntries [("group", color "red\x7dold\x7bcolor:blue")]
    let apart : Definition := .ofEntries [("group", color "red"), ("old", color "blue")]
    (∃ m n, keyframes {} (frame "marginLeft") = .ok m ∧ keyframes {} (frame "marginStart") = .ok n ∧
        m.name = n.name ∧ m ≠ n ∧ ¬ m.KeptBeside n) ∧
      (∃ m n, positionTry {} (place "marginLeft") = .ok m ∧
        positionTry {} (place "marginStart") = .ok n ∧ m.name = n.name ∧ m ≠ n ∧
        ¬ m.KeptBeside n) ∧
      (∃ m n, viewTransitionClass {} glued = .ok m ∧ viewTransitionClass {} apart = .ok n ∧
        m.name = n.name ∧ m ≠ n ∧ ¬ m.KeptBeside n) := by
  intro margin frame place color glued apart
  refine ⟨?_, ?_, ?_⟩
  · obtain ⟨m, n, hm, hn, hname, heq, hkept⟩ :=
      (constructs_eq_iff {} (frame "marginLeft") (frame "marginStart")).1
        [("from", [⟨"margin-left", ["0"], []⟩])] [("from", [⟨"margin-start", ["0"], []⟩])]
        (Outcome.eq_ok_of_toOption (by decide +kernel))
        (Outcome.eq_ok_of_toOption (by decide +kernel)) (by decide +kernel)
    have hne : ¬ framesText {} [("from", [⟨"margin-left", ["0"], []⟩])] .rtl =
        framesText {} [("from", [⟨"margin-start", ["0"], []⟩])] .rtl := by decide +kernel
    exact ⟨m, n, hm, hn, hname, mt heq.1 hne, mt hkept.1 hne⟩
  · obtain ⟨m, n, hm, hn, hname, heq, hkept⟩ :=
      (constructs_eq_iff {} (place "marginLeft") (place "marginStart")).2.1
        [⟨"margin-left", ["0"], []⟩] [⟨"margin-start", ["0"], []⟩]
        (Outcome.eq_ok_of_toOption (by decide +kernel))
        (Outcome.eq_ok_of_toOption (by decide +kernel)) (by decide +kernel)
    have hne : ¬ blockBody {} .rtl [⟨"margin-left", ["0"], []⟩] =
        blockBody {} .rtl [⟨"margin-start", ["0"], []⟩] := by decide +kernel
    exact ⟨m, n, hm, hn, hname, mt heq.1 hne, mt hkept.1 hne⟩
  · obtain ⟨m, n, hm, hn, hname, heq, hkept⟩ :=
      (constructs_eq_iff {} glued apart).2.2
        [("group", "color:red\x7dold\x7bcolor:blue")]
        [("group", "color:red"), ("old", "color:blue")]
        (Outcome.eq_ok_of_toOption (by decide +kernel))
        (Outcome.eq_ok_of_toOption (by decide +kernel)) (by decide +kernel)
    exact ⟨m, n, hm, hn, hname, mt heq.1 (by decide), mt hkept.1 (by decide)⟩

end AtomicCss
