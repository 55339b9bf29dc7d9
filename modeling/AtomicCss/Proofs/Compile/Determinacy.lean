import AtomicCss.Compile
import AtomicCss.Proofs.Definition.Canonical
import AtomicCss.Proofs.Options.Fingerprint

/-!
# What a compilation depends on

A compilation is remembered under two texts, one for the definition and one for the options. This is
sound because no stage of a compilation looks at more than the two texts tell: definitions that are
alike give the same events under options that agree.

* `walk_eq_of_alike`: the walk over a value, by induction on the value.
* `compileNamespace_eq_of_alike`: the compilation of a definition.
* `compileNamespace_determined`: the texts determine the compilation, and what each text tells.
-/

namespace AtomicCss

open StyleValue

variable {o p : Options}

/-! ### Stages that look at the options -/

/-- Normalizing a value reads only the settings that `Agree` compares. -/
theorem normalValue_eq_of_agree (h : o.Agree p) : normalValue o = normalValue p := by
  rw [h.eq_with]
  rfl

/-- Turning declarations into rules and a table reads only those settings too. -/
theorem compileDeclarations_eq_of_agree (h : o.Agree p) :
    compileDeclarations o = compileDeclarations p := by
  rw [h.eq_with]
  rfl

/-- A number is written before it is looked at. -/
theorem normalNumber_eq_of_alike (h : o.Agree p) {x y : Float}
    (hxy : formatNumber x = formatNumber y) (property : String) :
    normalNumber o property x = normalNumber p property y := by
  simp only [normalNumber, numberText, hxy, normalValue_eq_of_agree h]

/-- The longhands of one shorthand value are kept or refused alike under agreeing options. -/
theorem expandParts_eq_of_agree (h : o.Agree p) (path : List Condition)
    (parts : List (String × String)) : expandParts o path parts = expandParts p path parts := by
  induction parts with
  | nil => rfl
  | cons part parts ih => simp only [expandParts, ih, normalValue_eq_of_agree h]

/-- The attempt at one value text gives the same declarations and errors. -/
theorem expandText_eq_of_agree (h : o.Agree p) (property : String) (path : List Condition)
    (raw : String) : expandText o property path raw = expandText p property path raw := by
  simp only [expandText, expandPlain, expandShorthand, expandParts_eq_of_agree h,
    normalValue_eq_of_agree h]

/-- Two fallback values that are written alike are normalized to the same text. -/
theorem normalFallback_eq_of_alike (h : o.Agree p) (property : String) {a b : StyleValue}
    (hab : Alike a b) : normalFallback o property a = normalFallback p property b := by
  obtain ⟨rfl, rfl⟩ | ⟨s, rfl, rfl⟩ | ⟨x, y, rfl, rfl, hxy⟩ | ⟨as, bs, rfl, rfl, -⟩ |
    ⟨es, fs, rfl, rfl, -⟩ := alike_cases hab
  · rfl
  · simp only [normalFallback, normalValue_eq_of_agree h]
  · simp only [normalFallback, normalNumber_eq_of_alike h hxy]
  · rfl
  · rfl

theorem normalFallbacks_eq_of_alike (h : o.Agree p) (property : String)
    {as bs : List StyleValue} (hall : AlikeAll as bs) :
    as.mapM (normalFallback o property) = bs.mapM (normalFallback p property) := by
  induction as generalizing bs with
  | nil =>
    rw [alikeAll_nil hall]
    rfl
  | cons a as ih =>
    obtain ⟨b, bs, rfl, hab, hrest⟩ := alikeAll_cons hall
    rw [List.mapM_cons, List.mapM_cons, normalFallback_eq_of_alike h property hab, ih hrest]

/-! ### The walk -/

mutual

/-- Values that are alike give the same events under options that agree. -/
theorem walk_eq_of_alike (h : o.Agree p) (property : String) :
    ∀ {a b : StyleValue} (path : List Condition), Alike a b →
      walk o property path a = walk p property path b
  | .null, b, path, hab => by
    cases b with
    | null => rfl
    | _ => cases kind_eq_of_alike hab
  | .text s, b, path, hab => by
    cases b with
    | text t =>
      simp only [Alike] at hab
      simp only [walk, hab, expandText_eq_of_agree h]
    | _ => cases kind_eq_of_alike hab
  | .number x, b, path, hab => by
    cases b with
    | number y =>
      simp only [Alike] at hab
      simp only [walk, expandNumber, normalNumber_eq_of_alike h hab]
    | _ => cases kind_eq_of_alike hab
  | .fallbacks as, b, path, hab => by
    cases b with
    | fallbacks bs =>
      simp only [Alike] at hab
      simp only [walk, expandFallbacks, normalFallbacks_eq_of_alike h property hab]
    | _ => cases kind_eq_of_alike hab
  | .conditional es, b, path, hab => by
    cases b with
    | conditional fs =>
      simp only [Alike] at hab
      simp only [walk, walkEntries_eq_of_alike h property path hab]
    | _ => cases kind_eq_of_alike hab

/-- The walk over a block of conditions sees only how its values are written. The induction is on
the entries, with one case for each form of a value. -/
theorem walkEntries_eq_of_alike (h : o.Agree p) (property : String) :
    ∀ {es fs : List (String × StyleValue)} (path : List Condition), AlikeEntries es fs →
      walkEntries o property path es = walkEntries p property path fs
  | [], fs, path, hes => by
    rw [alikeEntries_nil hes]
    simp only [walkEntries]
  | (j, a) :: es, gs, path, hes => by
    obtain ⟨b, fs, rfl, hab, hrest⟩ := alikeEntries_cons hes
    simp only [walkEntries, walk_eq_of_alike h property _ hab,
      walkEntries_eq_of_alike h property path hrest]

end

/-- Entries that are alike give the same events one by one if every two entries do. -/
theorem flatMap_eq_of_alike {events events' : String → StyleValue → List Event}
    (hevents : ∀ key {a b : StyleValue}, Alike a b → events key a = events' key b)
    {es fs : List (String × StyleValue)} (hes : AlikeEntries es fs) :
    es.flatMap (fun entry => events entry.1 entry.2) =
      fs.flatMap (fun entry => events' entry.1 entry.2) := by
  induction es generalizing fs with
  | nil =>
    rw [alikeEntries_nil hes]
    rfl
  | cons entry es ih =>
    obtain ⟨b, fs, rfl, hab, hrest⟩ := alikeEntries_cons hes
    rw [List.flatMap_cons, List.flatMap_cons, hevents _ hab, ih hrest]

/-- The walk over the entries of a group key, from the walk over a block. -/
theorem walkGroup_eq_of_alike (h : o.Agree p) (key : String)
    {es fs : List (String × StyleValue)} (hes : AlikeEntries es fs) :
    walkGroup o key es = walkGroup p key fs :=
  flatMap_eq_of_alike
    (fun property _ _ hab => walk_eq_of_alike h (Property.dashed property) [.ofKey key] hab) hes

/-- The walk over one entry of a definition: what a run depends on, entry by entry. -/
theorem walkEntry_eq_of_alike (h : o.Agree p) (key : String) {a b : StyleValue}
    (hab : Alike a b) : walkEntry o key a = walkEntry p key b := by
  have hwalk := walk_eq_of_alike h (Property.dashed key) [] hab
  -- Only a conditional value may be a group of properties; all others are walked over.
  obtain ⟨rfl, rfl⟩ | ⟨s, rfl, rfl⟩ | ⟨x, y, rfl, rfl, -⟩ | ⟨as, bs, rfl, rfl, -⟩ |
    ⟨es, fs, rfl, rfl, hes⟩ := alike_cases hab
  case inr.inr.inr.inr => simp only [walkEntry, hwalk, walkGroup_eq_of_alike h key hes]
  all_goals simp only [walkEntry, hwalk, StyleValue.kind]

/-- Definitions that are alike give the same events under options that agree. -/
theorem expandDefinition_eq_of_alike (h : o.Agree p) {d e : Definition} (hde : d.Alike e) :
    expandDefinition o d = expandDefinition p e :=
  congrArg Expansion.mk
    (flatMap_eq_of_alike (fun key _ _ hab => walkEntry_eq_of_alike h key hab) hde)

/-! ### Compilations -/

/-- Definitions that are alike are compiled alike under options that agree. -/
theorem compileNamespace_eq_of_alike (h : o.Agree p) (name : String) {d e : Definition}
    (hde : d.Alike e) : compileNamespace o name d = compileNamespace p name e := by
  simp only [compileNamespace, expandDefinition_eq_of_alike h hde,
    compileDeclarations_eq_of_agree h]

/-- The two texts under which a compilation is remembered determine it. The text of a definition
tells everything but what a number was before it was written, and the text of the options tells all
of them but the two that no compilation looks at. -/
theorem compileNamespace_determined (o p : Options) (d e : Definition) :
    (d.canonicalText = e.canonicalText → o.fingerprintText = p.fingerprintText →
      ∀ name, compileNamespace o name d = compileNamespace p name e) ∧
    (d.canonicalText = e.canonicalText ↔ d.Alike e) ∧
    (o.fingerprintText = p.fingerprintText ↔ o.Agree p) ∧
    ∀ layers resolution name,
      compileNamespace { o with cssLayers := layers, resolution := resolution } name d =
        compileNamespace o name d := by
  refine ⟨fun hd ho name => ?_, d.canonicalText_eq_iff e, o.fingerprintText_eq_iff p,
    fun layers resolution name => ?_⟩
  · have hagree : o.Agree p := (o.fingerprintText_eq_iff p).1 ho
    have halike : d.Alike e := (d.canonicalText_eq_iff e).1 hd
    exact compileNamespace_eq_of_alike hagree name halike
  · have hself : d.Alike d := (d.canonicalText_eq_iff d).1 rfl
    exact (compileNamespace_eq_of_alike (o.agree_with layers resolution) name hself).symm

/-- Two numbers that are written alike, under options that differ in their layers and in which names
begin with a text that holds a bar. -/
theorem compileNamespace_determined_rounding :
    let width (x : Float) : Definition := .ofEntries [("width", .number x)]
    let options (layers : Bool) : Options := { classNamePrefix := "a|b", cssLayers := layers }
    (width 1.00001).canonicalText = (width 1.00002).canonicalText ∧
      (options true).fingerprintText = (options false).fingerprintText ∧
      ∀ name, compileNamespace (options true) name (width 1.00001) =
        compileNamespace (options false) name (width 1.00002) := by
  intro width options
  have hd : (width 1.00001).canonicalText = (width 1.00002).canonicalText := by decide +kernel
  have ho : (options true).fingerprintText = (options false).fingerprintText := rfl
  exact ⟨hd, ho, (compileNamespace_determined _ _ _ _).1 hd ho⟩

end AtomicCss
