import AtomicCss.Construct.Keyframes
import AtomicCss.Construct.PositionTry
import AtomicCss.Construct.ViewTransition
import AtomicCss.Proofs.Direction.Forms

/-!
# Constructs in both directions

The text of a construct is a template with a place for every declaration of its blocks. Filled with
the physical forms from left to right it is the text of the rule for left-to-right documents. An
animation, and an alternative for an anchored position, is written once more with the forms from
right to left, exactly if there is a declaration that has another form there. A class of view
transitions is not.

* `Template.fill`: a template with its declarations in some form. `Template.fill_eq_iff` says that
  the two directions give one text only if every declaration has one form.
* `declaredBy`: the declarations of a block; `eq_declaredBy_of_blockDeclarations` says that these
  are the ones that are written.
* `Rule.FollowsDirections`: the texts of a rule are those of a template.
* `constructs_followDirections`: which constructs are written in both directions.
-/

namespace AtomicCss

/-! ### Templates -/

namespace Template

/-- A part of a template: a text that stays, or the place of a declaration. -/
inductive Part where
  /-- A text that stays. -/
  | fixed (text : String)
  /-- The place of a declaration. -/
  | place (d : Declaration)

namespace Part

/-- The text of a part when declarations have the given form. -/
def text (form : Declaration → Declaration) : Part → String
  | .fixed text => text
  | .place d => (form d).body

/-- The declaration of a place. -/
def declaration? : Part → Option Declaration
  | .fixed _ => none
  | .place d => some d

end Part

/-- The text of a template when declarations have the given form. -/
def fill (form : Declaration → Declaration) (t : List Part) : String :=
  String.join (t.map (Part.text form))

/-- The declarations of a template in order. -/
def declarations (t : List Part) : List Declaration :=
  t.filterMap Part.declaration?

/-- Places for declarations with semicolons between them. -/
def row : List Declaration → List Part
  | [] => []
  | d :: ds => .place d :: ds.flatMap fun e => [.fixed ";", .place e]

/-- A template within a block. -/
def inBlock (head : String) (t : List Part) : List Part :=
  .fixed (head ++ "\x7b") :: (t ++ [.fixed "\x7d"])

section Fill

variable (form : Declaration → Declaration)

/-- The characters of a filled template are those of its parts in a row. -/
theorem toList_fill (t : List Part) :
    (fill form t).toList = t.flatMap fun part => (part.text form).toList := by
  rw [fill, String.toList_join, List.flatMap_map]

/-- A template made of templates is filled piece by piece. -/
theorem fill_flatMap {α : Type} (l : List α) (t : α → List Part) :
    fill form (l.flatMap t) = String.join (l.map fun a => fill form (t a)) := by
  simp only [← String.toList_inj, toList_fill, String.toList_join, List.flatMap_assoc,
    List.flatMap_map]

/-- A row of declarations is filled with their bodies, joined by semicolons. -/
theorem fill_row (ds : List Declaration) :
    fill form (row ds) = String.intercalate ";" (ds.map fun d => (form d).body) := by
  cases ds with
  | nil => rfl
  | cons d ds =>
    rw [← String.toList_inj, toList_fill, row, List.map_cons, Text.toList_intercalate_cons,
      List.flatMap_cons, List.flatMap_assoc, List.flatMap_map]
    simp [Part.text]

theorem fill_inBlock (head : String) (t : List Part) :
    fill form (inBlock head t) = block head (fill form t) := by
  simp [← String.toList_inj, toList_fill, inBlock, block, Part.text]

end Fill

theorem declarations_append (t u : List Part) :
    declarations (t ++ u) = declarations t ++ declarations u :=
  List.filterMap_append

/-- The declarations of a template made of templates, piece by piece. -/
theorem declarations_flatMap {α : Type} (l : List α) (t : α → List Part) :
    declarations (l.flatMap t) = l.flatMap fun a => declarations (t a) := by
  induction l with
  | nil => rfl
  | cons a l ih => rw [List.flatMap_cons, declarations_append, ih, List.flatMap_cons]

theorem declarations_row (ds : List Declaration) : declarations (row ds) = ds := by
  cases ds with
  | nil => rfl
  | cons d ds =>
    show d :: declarations (ds.flatMap fun e => [.fixed ";", .place e]) = d :: ds
    rw [declarations_flatMap]
    exact congrArg (d :: ·) (List.flatMap_singleton' ds)

theorem declarations_inBlock (head : String) (t : List Part) :
    declarations (inBlock head t) = declarations t := by
  show declarations (t ++ [.fixed "\x7d"]) = declarations t
  rw [declarations_append]
  exact List.append_nil _

/-- The directions give one text only if every declaration has one physical form. -/
theorem fill_eq_iff {options : Options} {t : List Part}
    (hcanonical : ∀ d ∈ declarations t, d.IsCanonical options)
    (hset : ∀ d ∈ declarations t, d.isUnset = false) :
    fill (Declaration.physical options .ltr) t = fill (Declaration.physical options .rtl) t ↔
      ∀ d ∈ declarations t, d.physical options .ltr = d.physical options .rtl := by
  have hplace : ∀ {d : Declaration}, .place d ∈ t → d ∈ declarations t := fun hd =>
    List.mem_filterMap.2 ⟨_, hd, rfl⟩
  have haligned : ∀ part ∈ t,
      Text.Aligned (part.text (Declaration.physical options .ltr)).toList
        (part.text (Declaration.physical options .rtl)).toList := by
    intro part hpart
    cases part with
    | fixed text => exact Text.aligned_refl _
    | place d => exact Declaration.aligned_body (hcanonical d (hplace hpart))
  -- The parts are aligned, so that equal texts are equal part by part.
  rw [← String.toList_inj, toList_fill, toList_fill, Text.flatMap_eq_flatMap_iff haligned]
  constructor
  · intro h d hd
    obtain ⟨part, hpart, hdeclaration⟩ := List.mem_filterMap.1 hd
    cases part with
    | fixed text => cases hdeclaration
    | place e =>
      cases hdeclaration
      exact (Declaration.body_physical_eq_iff (hcanonical d hd) (hset d hd)).1
        (String.toList_inj.1 (h _ hpart))
  · intro h part hpart
    cases part with
    | fixed text => rfl
    | place d =>
      show (d.physical options .ltr).body.toList = (d.physical options .rtl).body.toList
      rw [h d (hplace hpart)]

end Template

open Template (Part fill row inBlock)

/-! ### What a block declares -/

/-- The declarations that properties with their values give, without those that unset theirs. -/
def declaredBy (options : Options) (entries : List (String × StyleValue)) : List Declaration :=
  entries.flatMap fun entry =>
    (expandProperty options entry.1 entry.2).declarations.filter (!·.isUnset)

/-- The properties of a map with their values. -/
def StyleValue.properties : StyleValue → List (String × StyleValue)
  | .conditional entries => entries
  | _ => []

section Blocks

variable {options : Options} {entries : List (String × StyleValue)} {d : Declaration}

/-- What a block declares is normalized under the options it was compiled with. -/
theorem isCanonical_of_mem_declaredBy (h : d ∈ declaredBy options entries) :
    d.IsCanonical options := by
  obtain ⟨entry, -, hd⟩ := List.mem_flatMap.1 h
  exact isCanonical_of_mem_expandProperty (List.mem_filter.1 hd).1

/-- A block never declares that a property is unset. -/
theorem isUnset_of_mem_declaredBy (h : d ∈ declaredBy options entries) : d.isUnset = false := by
  obtain ⟨entry, -, hd⟩ := List.mem_flatMap.1 h
  simpa using (List.mem_filter.1 hd).2

/-- If every success of `f` is the value of `g`, a run of `f` over a list is a map of `g`. -/
theorem Outcome.eq_map_of_mapM {ε α β : Type} {f : α → Except ε β} {g : α → β} {xs : List α}
    {ys : List β} (hf : ∀ x y, f x = .ok y → y = g x) (h : xs.mapM f = .ok ys) : ys = xs.map g := by
  induction xs generalizing ys with
  | nil =>
    cases h
    rfl
  | cons x xs ih =>
    rw [List.mapM_cons] at h
    obtain ⟨first, hfirst, h⟩ := bind_eq_ok.1 h
    obtain ⟨rest, hrest, h⟩ := bind_eq_ok.1 h
    cases h
    rw [List.map_cons, ← hf x first hfirst, ← ih hrest]

/-- A block that is accepted holds the declarations its entries make, in their order. -/
theorem eq_declaredBy_of_blockDeclarations {ds : List Declaration}
    (h : blockDeclarations options entries = .ok ds) : ds = declaredBy options entries := by
  have hproperty : ∀ entry ds, blockProperty options entry = .ok ds →
      ds = (expandProperty options entry.1 entry.2).declarations.filter (!·.isUnset) := by
    intro entry ds hds
    simp only [blockProperty] at hds
    split at hds
    · cases hds
    · split at hds
      · cases hds
      · cases hds
        rfl
  obtain ⟨blocks, hblocks, rfl⟩ := Outcome.map_eq_ok.1 h
  rw [Outcome.eq_map_of_mapM hproperty hblocks, declaredBy, List.flatMap_def]

theorem eq_declaredBy_of_frameDeclarations {key : String} {value : StyleValue}
    {ds : List Declaration} (h : frameDeclarations options key value = .ok ds) :
    ds = declaredBy options value.properties := by
  cases value with
  | conditional entries => exact eq_declaredBy_of_blockDeclarations h
  | _ => cases h

end Blocks

theorem inConstruct_eq_ok {α : Type} {construct : String} {r : Except StyleError α} {a : α} :
    inConstruct construct r = .ok a ↔ r = .ok a := by
  cases r <;> simp [inConstruct, Except.mapError]

/-! ### Constructs -/

/-- A rule has the texts of a template: from left to right that with the forms from left to right,
and one from right to left, with the forms from right to left, exactly if some declaration has
another form there. -/
structure Rule.FollowsDirections (r : Rule) (options : Options) (t : List Part) : Prop where
  /-- The text from left to right. -/
  ltr_eq : r.ltr = fill (Declaration.physical options .ltr) t
  /-- When there is a text from right to left. -/
  isSome_rtl_iff : r.rtl.isSome = true ↔
    ∃ d ∈ Template.declarations t, d.physical options .rtl ≠ d.physical options .ltr
  /-- The text from right to left. -/
  rtl_eq : ∀ text, r.rtl = some text → text = fill (Declaration.physical options .rtl) t

/-- The template of an animation. -/
def animationTemplate (options : Options) (name : String) (d : Definition) : List Part :=
  inBlock ("@keyframes " ++ name) (d.entries.flatMap fun frame =>
    inBlock frame.1 (row (declaredBy options frame.2.properties)))

/-- The template of an alternative for an anchored position. -/
def positionTemplate (options : Options) (name : String) (d : Definition) : List Part :=
  inBlock ("@position-try " ++ name) (row (declaredBy options d.entries))

/-- The template of a class of view transitions. -/
def transitionTemplate (options : Options) (name : String) (d : Definition) : List Part :=
  d.entries.flatMap fun part =>
    inBlock (transitionSelector name (Property.dashed part.1))
      (row (declaredBy options part.2.properties))

section Constructs

variable {options : Options} {d : Definition} {m : Named}

/-- A rule with the texts of a template for both directions follows them. -/
theorem followsDirections_namedRule {name : String} {text : Direction → String} {t : List Part}
    (hcanonical : ∀ d ∈ Template.declarations t, d.IsCanonical options)
    (hset : ∀ d ∈ Template.declarations t, d.isUnset = false)
    (htext : ∀ direction, text direction = fill (Declaration.physical options direction) t) :
    (namedRule name text).FollowsDirections options t where
  ltr_eq := htext .ltr
  isSome_rtl_iff := by
    have hiff := Template.fill_eq_iff hcanonical hset
    rw [← htext, ← htext] at hiff
    have hsome : (namedRule name text).rtl.isSome = true ↔ ¬ text .ltr = text .rtl := by
      rw [namedRule]
      split
      case isTrue h => simp [h]
      case isFalse h => simpa using fun heq => h heq.symm
    rw [hsome, hiff]
    push Not
    simp only [ne_comm]
  rtl_eq := by
    intro rtl h
    rw [namedRule] at h
    split at h
    · cases h
    · rw [← Option.some.inj h, htext]

/-- The rule of an animation is one `@keyframes` block, filled once for each direction. -/
theorem rule_animation (options : Options) (frames : List (String × List Declaration)) :
    (animation options frames).rule = namedRule (animation options frames).name fun direction =>
      block ("@keyframes " ++ (animation options frames).name)
        (framesText options frames direction) :=
  rfl

/-- The rule of a position alternative is one `@position-try` block, filled in the same way. -/
theorem rule_positionAlternative (options : Options) (ds : List Declaration) :
    (positionAlternative options ds).rule =
      namedRule (positionAlternative options ds).name fun direction =>
        block ("@position-try " ++ (positionAlternative options ds).name)
          (blockBody options direction ds) :=
  rfl

/-- Both texts of an animation's rule are one template, filled for the two directions. -/
theorem keyframes_followsDirections (h : keyframes options d = .ok m) :
    m.rule.FollowsDirections options (animationTemplate options m.name d) := by
  obtain ⟨frames, hframes, rfl⟩ := Outcome.map_eq_ok.1 (inConstruct_eq_ok.1 h)
  have hframe : ∀ entry frame, keyframe options entry = .ok frame →
      frame = (entry.1, declaredBy options entry.2.properties) := by
    intro entry frame hframe
    obtain ⟨ds, hds, rfl⟩ := Outcome.map_eq_ok.1 hframe
    rw [eq_declaredBy_of_frameDeclarations hds]
  obtain rfl := Outcome.eq_map_of_mapM hframe hframes
  have hmem : ∀ name, ∀ e ∈ Template.declarations (animationTemplate options name d),
      ∃ frame ∈ d.entries, e ∈ declaredBy options frame.2.properties := by
    intro name e he
    simpa only [animationTemplate, Template.declarations_inBlock, Template.declarations_flatMap,
      Template.declarations_row, List.mem_flatMap] using he
  rw [rule_animation]
  refine followsDirections_namedRule (fun e he => ?_) (fun e he => ?_) fun direction => ?_
  · obtain ⟨frame, -, he⟩ := hmem _ e he
    exact isCanonical_of_mem_declaredBy he
  · obtain ⟨frame, -, he⟩ := hmem _ e he
    exact isUnset_of_mem_declaredBy he
  · simp only [animationTemplate, Template.fill_inBlock, Template.fill_flatMap, Template.fill_row,
      framesText, blockBody, List.map_map]
    rfl

/-- Both texts of a position alternative's rule are one template as well. -/
theorem positionTry_followsDirections (h : positionTry options d = .ok m) :
    m.rule.FollowsDirections options (positionTemplate options m.name d) := by
  obtain ⟨ds, hds, rfl⟩ := Outcome.map_eq_ok.1 (inConstruct_eq_ok.1 h)
  obtain rfl := eq_declaredBy_of_blockDeclarations hds
  have hmem : ∀ name, Template.declarations (positionTemplate options name d) =
      declaredBy options d.entries := by
    intro name
    rw [positionTemplate, Template.declarations_inBlock, Template.declarations_row]
  rw [rule_positionAlternative]
  refine followsDirections_namedRule (fun e he => ?_) (fun e he => ?_) fun direction => ?_
  · exact isCanonical_of_mem_declaredBy (hmem _ ▸ he)
  · exact isUnset_of_mem_declaredBy (hmem _ ▸ he)
  · simp only [positionTemplate, Template.fill_inBlock, Template.fill_row, blockBody]

/-- A class of view transitions is written from left to right only. -/
theorem viewTransitionClass_texts (h : viewTransitionClass options d = .ok m) :
    m.rule.ltr =
        fill (Declaration.physical options .ltr) (transitionTemplate options m.name d) ∧
      m.rule.rtl = none := by
  obtain ⟨parts, hparts, rfl⟩ := Outcome.map_eq_ok.1 (inConstruct_eq_ok.1 h)
  have hpart : ∀ entry part, transitionPart options entry = .ok part →
      part = (Property.dashed entry.1,
        blockBody options .ltr (declaredBy options entry.2.properties)) := by
    intro entry part hpart
    simp only [transitionPart] at hpart
    split at hpart
    · obtain ⟨ds, hds, rfl⟩ := Outcome.map_eq_ok.1 hpart
      rw [eq_declaredBy_of_frameDeclarations hds]
    · cases hpart
  obtain rfl := Outcome.eq_map_of_mapM hpart hparts
  refine ⟨?_, if_pos rfl⟩
  simp only [transition, namedRule, transitionTemplate, Template.fill_flatMap,
    Template.fill_inBlock, Template.fill_row, blockBody, List.map_map]
  rfl

end Constructs

/-- A construct that is accepted is written after its template. Animations and alternatives for
anchored positions are written in both directions, exactly if some declaration of theirs has two
physical forms. A class of view transitions is never written from right to left, so it follows the
directions exactly if no declaration of its blocks has two forms. -/
theorem constructs_followDirections (options : Options) (d : Definition) (m : Named) :
    (keyframes options d = .ok m →
      m.rule.FollowsDirections options (animationTemplate options m.name d)) ∧
    (positionTry options d = .ok m →
      m.rule.FollowsDirections options (positionTemplate options m.name d)) ∧
    (viewTransitionClass options d = .ok m →
      let t := transitionTemplate options m.name d
      m.rule.ltr = fill (Declaration.physical options .ltr) t ∧ m.rule.rtl = none ∧
        (m.rule.FollowsDirections options t ↔
          ∀ e ∈ Template.declarations t, e.physical options .rtl = e.physical options .ltr)) := by
  refine ⟨keyframes_followsDirections, positionTry_followsDirections, fun h => ?_⟩
  obtain ⟨hltr, hrtl⟩ := viewTransitionClass_texts h
  refine ⟨hltr, hrtl, fun hfollows e he => ?_, fun hsame => ⟨hltr, ?_, ?_⟩⟩
  · by_contra hne
    have hsome := hfollows.isSome_rtl_iff.2 ⟨e, he, hne⟩
    rw [hrtl] at hsome
    cases hsome
  · rw [hrtl]
    refine iff_of_false (by simp) ?_
    rintro ⟨e, he, hne⟩
    exact hne (hsame e he)
  · intro text htext
    rw [hrtl] at htext
    cases htext

/-- A margin at the start is written on both sides in an animation and in an alternative, but on the
left only in a class of view transitions. -/
theorem constructs_followDirections_margin :
    let margin : StyleValue := .conditional [("marginStart", .number 0)]
    let frames : Definition := .ofEntries [("from", margin)]
    let place : Definition := .ofEntries [("marginStart", .number 0)]
    let parts : Definition := .ofEntries [("group", margin)]
    let animated : Named := ⟨"xl76wfr-B", ⟨"xl76wfr-B",
      "@keyframes xl76wfr-B\x7bfrom\x7bmargin-left:0\x7d\x7d",
      some "@keyframes xl76wfr-B\x7bfrom\x7bmargin-right:0\x7d\x7d", .auxiliary⟩⟩
    let placed : Named := ⟨"--xwyuiv8", ⟨"--xwyuiv8",
      "@position-try --xwyuiv8\x7bmargin-left:0\x7d",
      some "@position-try --xwyuiv8\x7bmargin-right:0\x7d", .auxiliary⟩⟩
    let changed : Named := ⟨"xn58dw6", ⟨"xn58dw6",
      "::view-transition-group(*.xn58dw6)\x7bmargin-left:0\x7d", none, .auxiliary⟩⟩
    (keyframes {} frames = .ok animated ∧
      animated.rule.FollowsDirections {} (animationTemplate {} animated.name frames)) ∧
    (positionTry {} place = .ok placed ∧
      placed.rule.FollowsDirections {} (positionTemplate {} placed.name place)) ∧
    viewTransitionClass {} parts = .ok changed ∧
      ¬ changed.rule.FollowsDirections {} (transitionTemplate {} changed.name parts) := by
  intro margin frames place parts animated placed changed
  have hanimated : keyframes {} frames = .ok animated :=
    Outcome.eq_ok_of_toOption (by decide +kernel)
  have hplaced : positionTry {} place = .ok placed :=
    Outcome.eq_ok_of_toOption (by decide +kernel)
  have hchanged : viewTransitionClass {} parts = .ok changed :=
    Outcome.eq_ok_of_toOption (by decide +kernel)
  have hmargin : ∃ e ∈ Template.declarations (transitionTemplate {} changed.name parts),
      e.physical {} .rtl ≠ e.physical {} .ltr := by decide +kernel
  refine ⟨⟨hanimated, (constructs_followDirections {} frames animated).1 hanimated⟩,
    ⟨hplaced, (constructs_followDirections {} place placed).2.1 hplaced⟩, hchanged, fun h => ?_⟩
  obtain ⟨e, he, hne⟩ := hmargin
  exact hne (((constructs_followDirections {} parts changed).2.2 hchanged).2.2.1 h e he)

end AtomicCss
