import AtomicCss.Options
import AtomicCss.Proofs.Text

/-!
# What a fingerprint text determines

The fingerprint text of the options is the beginning of names and three flags, with bars in between.
The beginning may hold bars of its own, but a flag never does, so the flags are read off from the
end.

* `Options.Agree`: the same but for the two options that say how rules are put together.
* `Options.fingerprintText_eq_iff`: options share a fingerprint text exactly when they agree.
-/

namespace AtomicCss.Options

/-- Options that are the same but for the layers of the stylesheet and the way in which namespaces
are merged. -/
structure Agree (o p : Options) : Prop where
  classNamePrefix : o.classNamePrefix = p.classNamePrefix
  lengthToRem : o.lengthToRem = p.lengthToRem
  debug : o.debug = p.debug
  flipLegacyValues : o.flipLegacyValues = p.flipLegacyValues

/-- Options that agree differ in two fields at most. -/
theorem Agree.eq_with {o p : Options} (h : o.Agree p) :
    p = { o with cssLayers := p.cssLayers, resolution := p.resolution } := by
  obtain ⟨hstart, hrem, hdebug, hflip⟩ := h
  cases o
  cases p
  simp_all

theorem agree_with (o : Options) (layers : Bool) (resolution : StyleResolution) :
    o.Agree { o with cssLayers := layers, resolution := resolution } :=
  ⟨rfl, rfl, rfl, rfl⟩

theorem bar_notMem_flag (b : Bool) : '|' ∉ (flag b).toList := by
  cases b <;> decide

theorem flag_inj {b c : Bool} (h : (flag b).toList = (flag c).toList) : b = c := by
  revert h
  cases b <;> cases c <;> decide

/-- The fingerprint is the prefix and three flags, with bars between them. -/
theorem toList_fingerprintText (o : Options) :
    o.fingerprintText.toList =
      ((o.classNamePrefix.toList ++ '|' :: (flag o.lengthToRem).toList) ++
        '|' :: (flag o.debug).toList) ++ '|' :: (flag o.flipLegacyValues).toList := by
  simp [fingerprintText]

/-- Options share a fingerprint text exactly when they agree. -/
theorem fingerprintText_eq_iff (o p : Options) :
    o.fingerprintText = p.fingerprintText ↔ o.Agree p := by
  constructor
  · intro h
    have hchars := congrArg String.toList h
    rw [toList_fingerprintText, toList_fingerprintText] at hchars
    obtain ⟨hchars, hflip⟩ :=
      Text.append_lastMark_inj (bar_notMem_flag _) (bar_notMem_flag _) hchars
    obtain ⟨hchars, hdebug⟩ :=
      Text.append_lastMark_inj (bar_notMem_flag _) (bar_notMem_flag _) hchars
    obtain ⟨hchars, hrem⟩ :=
      Text.append_lastMark_inj (bar_notMem_flag _) (bar_notMem_flag _) hchars
    exact ⟨String.toList_inj.1 hchars, flag_inj hrem, flag_inj hdebug, flag_inj hflip⟩
  · intro h
    simp only [fingerprintText, h.classNamePrefix, h.lengthToRem, h.debug, h.flipLegacyValues]

end AtomicCss.Options
