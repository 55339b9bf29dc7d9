import AtomicCss.Proofs.Construct.Direction
import AtomicCss.Proofs.Construct.Naming
import AtomicCss.Proofs.Digest.Base36
import AtomicCss.Proofs.Rule
import AtomicCss.Proofs.Sheet

/-!
# Names of classes and of animations

A class name ends in a digest, so its last character is a digit of base 36. The name of an
animation ends in `-B`, and `B` is no such digit. So the two differ under any options, whatever the
prefixes are, whatever property a class name shows and whatever texts the digests are made from.

* `Declaration.endsInDigit_className`: how class names end.
* `not_endsInDigit_of_mark`: how names of animations do not end.
* `Rule.unaffectedBy_of_ne`: rules with different names do not get in each other's way.
* `digests_faithful_names_apart`: digests are written faithfully, and a class and an animation are
  never named alike.
-/

namespace AtomicCss

/-! ### How names end -/

/-- Whether the last character of a name is a digit of base 36. -/
def EndsInDigit (name : String) : Prop :=
  ∃ c ∈ Base36.alphabet, name.toList.getLast? = some c

/-- Only the end of a text decides whether it ends in a digit. -/
theorem EndsInDigit.append {t : String} (h : EndsInDigit t) (s : String) :
    EndsInDigit (s ++ t) := by
  obtain ⟨c, hc, hlast⟩ := h
  refine ⟨c, hc, ?_⟩
  rw [String.toList_append, List.getLast?_append, hlast]
  rfl

/-- A digest is written with a digit at its end, whatever was digested. -/
theorem endsInDigit_shortName (s : String) : EndsInDigit (shortName s) := by
  have hnumeral := Base36.isNumeral_write (Digest.fold (Digest.ofText s)).toNat
  refine ⟨_, hnumeral.mem_alphabet _ (List.getLast_mem hnumeral.ne_nil), ?_⟩
  rw [shortName, String.toList_ofList, List.getLast?_eq_some_getLast hnumeral.ne_nil]

/-- The prefix of the options stands in front, so a generated name ends in a digit as well. -/
theorem endsInDigit_prefixedName (options : Options) (s : String) :
    EndsInDigit (prefixedName options s) :=
  (endsInDigit_shortName s).append _

/-- With or without the property in front, a class name ends in a digest. -/
theorem Declaration.endsInDigit_className (options : Options) (d : Declaration) :
    EndsInDigit (d.className options) := by
  unfold className
  split
  · exact (endsInDigit_prefixedName options d.canonicalText).append _
  · exact endsInDigit_prefixedName options d.canonicalText

/-- The mark of animations is no digit. -/
theorem not_endsInDigit_of_mark {name : String} (h : "-B".toList <:+ name.toList) :
    ¬ EndsInDigit name := by
  rintro ⟨c, hc, hlast⟩
  obtain ⟨cs, hname⟩ := h
  rw [← hname, List.getLast?_append] at hlast
  obtain rfl : 'B' = c := Option.some.inj hlast
  exact absurd hc (by decide)

/-! ### Animations -/

/-- The name of an animation that is accepted has the mark at its end, and the rule goes by that
name. -/
theorem keyframes_name {options : Options} {f : Definition} {n : Named}
    (h : keyframes options f = .ok n) :
    "-B".toList <:+ n.name.toList ∧ n.rule.className = n.name := by
  obtain ⟨frames, -, rfl⟩ := Outcome.map_eq_ok.1 (inConstruct_eq_ok.1 h)
  refine ⟨?_, rfl⟩
  rw [animation, String.toList_append]
  exact List.suffix_append _ _

/-! ### Rules beside each other -/

/-- Whether a sheet keeps a rule, or not, regardless of another rule that is put anywhere among its
rules. -/
def Rule.UnaffectedBy (r s : Rule) : Prop :=
  ∀ before after, r ∈ (Sheet.ofRules (before ++ s :: after)).rules ↔
    r ∈ (Sheet.ofRules (before ++ after)).rules

/-- Rules of two class names never take each other's place in a sheet. -/
theorem Rule.unaffectedBy_of_ne {r s : Rule} (h : r.className ≠ s.className) :
    r.UnaffectedBy s ∧ s.UnaffectedBy r :=
  ⟨fun _ _ => Sheet.mem_ofRules_insert_iff h.symm, fun _ _ => Sheet.mem_ofRules_insert_iff h⟩

/-- Every number of 32 bits is read back from its numeral, which has one to seven digits and no zero
in front unless the number is zero; so numerals tell numbers apart. The name of an animation ends in
`-B`, and no class has that name, also under other options. So neither of their rules makes a sheet
drop the other. -/
theorem digests_faithful_names_apart :
    (∀ v : UInt32,
      Base36.read (Base36.write v.toNat) = v.toNat ∧
      1 ≤ (Base36.write v.toNat).length ∧ (Base36.write v.toNat).length ≤ 7 ∧
      (∀ c ∈ Base36.write v.toNat, c ∈ Base36.alphabet) ∧
      ((Base36.write v.toNat).head? = some '0' → v = 0)) ∧
    (Function.Injective fun v : UInt32 => Base36.write v.toNat) ∧
    ∀ (options options' : Options) (d : Declaration) (f : Definition) (n : Named),
      keyframes options' f = .ok n →
        "-B".toList <:+ n.name.toList ∧ d.className options ≠ n.name ∧
        ∀ r, d.rule? options = some r → r.UnaffectedBy n.rule ∧ n.rule.UnaffectedBy r := by
  refine ⟨fun v => ?_, fun v w hvw => ?_, fun options options' d f n h => ?_⟩
  · obtain ⟨hnumeral, hread⟩ := Base36.write_eq_iff.1 (Eq.refl (Base36.write v.toNat))
    refine ⟨hread, List.length_pos_iff.2 hnumeral.ne_nil, Base36.length_write_toNat_le v,
      hnumeral.mem_alphabet, fun hzero => ?_⟩
    exact UInt32.toNat_inj.1 (Base36.eq_zero_of_head?_write hzero)
  · have hread : Base36.read (Base36.write w.toNat) = v.toNat := (Base36.write_eq_iff.1 hvw).2
    exact UInt32.toNat_inj.1 (hread.symm.trans (Base36.read_write w.toNat))
  · obtain ⟨hmark, hname⟩ := keyframes_name h
    -- A class name ends in a digit and the name of an animation in a capital letter.
    have hne : d.className options ≠ n.name := by
      intro heq
      exact not_endsInDigit_of_mark hmark (heq ▸ d.endsInDigit_className options)
    refine ⟨hmark, hne, fun r hr => Rule.unaffectedBy_of_ne ?_⟩
    rwa [(Declaration.rule?_eq_some hr).1, hname]

/-- A prefix and a property that end like the names of animations do not make a class name like
one. -/
theorem digests_faithful_names_apart_marked :
    let options : Options := { classNamePrefix := "-B", debug := true }
    let frames : Definition := .ofEntries [("from", .conditional [("marginLeft", .number 0)])]
    let d : Declaration := ⟨"--x-B", ["red"], []⟩
    let v : UInt32 := 0
    ((Base36.write v.toNat).head? = some '0' ∧ v = 0) ∧
    ∃ n r, keyframes options frames = .ok n ∧ "-B".toList <:+ n.name.toList ∧
      d.className options ≠ n.name ∧ d.rule? options = some r ∧ r.UnaffectedBy n.rule ∧
      n.rule.UnaffectedBy r := by
  intro options frames d v
  obtain ⟨hnumerals, -, hapart⟩ := digests_faithful_names_apart
  have hzero : (Base36.write v.toNat).head? = some '0' := congrArg List.head? Base36.write_zero
  have hframes : frames.entries.mapM (keyframe options) =
      .ok [("from", [⟨"margin-left", ["0"], []⟩])] :=
    Outcome.eq_ok_of_toOption (by decide +kernel)
  have hn := keyframes_eq hframes
  obtain ⟨r, hr⟩ := d.exists_rule? options rfl
  obtain ⟨hmark, hne, hrules⟩ := hapart options options d frames _ hn
  exact ⟨⟨hzero, (hnumerals v).2.2.2.2 hzero⟩, _, r, hn, hmark, hne, hr, hrules r hr⟩

end AtomicCss
