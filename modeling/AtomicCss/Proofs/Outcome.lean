/-!
# Computations that may fail

A computation that succeeds does so through the success of its parts, and a list of computations
fails as the first of them that fails.

* `Decides`: when a computation succeeds, and what it gives or how it fails.
* `decides_mapM`: a list of computations that are known in this way.
-/

namespace AtomicCss.Outcome

variable {ε α β : Type}

/-- A sequence succeeds if its first part does and its second part does on the result. -/
theorem bind_eq_ok {x : Except ε α} {f : α → Except ε β} {b : β} :
    x >>= f = .ok b ↔ ∃ a, x = .ok a ∧ f a = .ok b := by
  cases x <;> simp [bind, Except.bind]

theorem map_eq_ok {x : Except ε α} {f : α → β} {b : β} :
    x.map f = .ok b ↔ ∃ a, x = .ok a ∧ f a = b := by
  cases x <;> simp [Except.map]

/-- An outcome is read off its value, which is how a concrete one is computed. -/
theorem eq_ok_of_toOption {x : Except ε α} {a : α} (h : x.toOption = some a) : x = .ok a := by
  cases x with
  | error error => cases h
  | ok b => exact congrArg Except.ok (Option.some.inj h)

theorem exists_error_of_not_isOk {x : Except ε α} (h : (!x.isOk) = true) :
    ∃ error, x = .error error := by
  cases x with
  | error error => exact ⟨error, rfl⟩
  | ok a => cases h

/-- What a list of computations gives comes from one of them. -/
theorem exists_of_mem_mapM {f : α → Except ε β} {xs : List α} {ys : List β}
    (h : xs.mapM f = .ok ys) {y : β} (hy : y ∈ ys) : ∃ x ∈ xs, f x = .ok y := by
  induction xs generalizing ys with
  | nil =>
    cases h
    cases hy
  | cons x xs ih =>
    rw [List.mapM_cons] at h
    obtain ⟨first, hfirst, h⟩ := bind_eq_ok.1 h
    obtain ⟨rest, hrest, h⟩ := bind_eq_ok.1 h
    cases h
    rcases List.mem_cons.1 hy with rfl | hy
    · exact ⟨x, by simp, hfirst⟩
    · obtain ⟨z, hz, hfz⟩ := ih hrest hy
      exact ⟨z, by simp [hz], hfz⟩

/-- Each result of a run over a list comes from an item of the list. -/
theorem exists_of_mem_mapM_some {f : α → Option β} {xs : List α} {ys : List β}
    (h : xs.mapM f = some ys) {y : β} (hy : y ∈ ys) : ∃ x ∈ xs, f x = some y := by
  induction xs generalizing ys with
  | nil =>
    cases h
    cases hy
  | cons x xs ih =>
    rw [List.mapM_cons] at h
    obtain ⟨first, hfirst, h⟩ := Option.bind_eq_some_iff.1 h
    obtain ⟨rest, hrest, h⟩ := Option.bind_eq_some_iff.1 h
    cases h
    rcases List.mem_cons.1 hy with rfl | hy
    · exact ⟨x, List.mem_cons_self, hfirst⟩
    · obtain ⟨z, hz, hfz⟩ := ih hrest hy
      exact ⟨z, List.mem_cons_of_mem _ hz, hfz⟩

/-! ### When a computation succeeds -/

/-- The computation succeeds exactly if `p` holds. It gives something good then, and fails with
something bad otherwise. -/
def Decides (x : Except ε α) (p : Prop) (good : α → Prop) (bad : ε → Prop) : Prop :=
  (p ∧ ∃ a, x = .ok a ∧ good a) ∨ (¬ p ∧ ∃ error, x = .error error ∧ bad error)

section

variable {x : Except ε α} {p : Prop} {good : α → Prop} {bad : ε → Prop}

/-- The computation succeeds exactly if the condition holds. -/
theorem Decides.succeeds_iff (h : Decides x p good bad) : (∃ a, x = .ok a) ↔ p := by
  rcases h with ⟨hp, a, rfl, -⟩ | ⟨hp, error, rfl, -⟩
  · exact ⟨fun _ => hp, fun _ => ⟨a, rfl⟩⟩
  · refine ⟨?_, fun h => absurd h hp⟩
    rintro ⟨a, ⟨⟩⟩

theorem Decides.good_of_ok (h : Decides x p good bad) {a : α} (ha : x = .ok a) : good a := by
  rcases h with ⟨-, b, rfl, hb⟩ | ⟨-, error, rfl, -⟩
  · exact Except.ok.inj ha ▸ hb
  · cases ha

theorem Decides.bad_of_error (h : Decides x p good bad) {error : ε} (herror : x = .error error) :
    bad error := by
  rcases h with ⟨-, b, rfl, -⟩ | ⟨-, error', rfl, hbad⟩
  · cases herror
  · exact Except.error.inj herror ▸ hbad

/-- The condition may be put in other words, and less may be said of errors. -/
theorem Decides.mono (h : Decides x p good bad) {q : Prop} {bad' : ε → Prop} (hpq : p ↔ q)
    (hbad : ∀ error, bad error → bad' error) : Decides x q good bad' := by
  rcases h with ⟨hp, ha⟩ | ⟨hp, error, hx, herror⟩
  · exact .inl ⟨hpq.1 hp, ha⟩
  · exact .inr ⟨mt hpq.2 hp, error, hx, hbad error herror⟩

/-- Mapping results does not change which computations succeed. -/
theorem Decides.map {f : α → β} {good' : β → Prop} (h : Decides x p good bad)
    (hgood : ∀ a, good a → good' (f a)) : Decides (x.map f) p good' bad := by
  rcases h with ⟨hp, a, rfl, ha⟩ | ⟨hp, error, rfl, herror⟩
  · exact .inl ⟨hp, f a, rfl, hgood a ha⟩
  · exact .inr ⟨hp, error, rfl, herror⟩

end

/-- Computations whose results show what they were made from succeed together if each of them does,
and their results show the whole list. Otherwise they fail as the first that fails. -/
theorem decides_mapM {f : α → Except ε β} {p : α → Prop} {g : β → α} {bad : α → ε → Prop}
    {xs : List α} (h : ∀ x ∈ xs, Decides (f x) (p x) (fun y => g y = x) (bad x)) :
    Decides (xs.mapM f) (∀ x ∈ xs, p x) (fun ys => ys.map g = xs) fun error =>
      ∃ before x after, xs = before ++ x :: after ∧ (∀ y ∈ before, p y) ∧ ¬ p x ∧ bad x error := by
  induction xs with
  | nil => exact .inl ⟨fun _ hx => absurd hx List.not_mem_nil, [], rfl, rfl⟩
  | cons x xs ih =>
    -- The first computation that fails decides; those before it have succeeded.
    rw [List.mapM_cons]
    rcases h x List.mem_cons_self with ⟨hp, y, hy, hgy⟩ | ⟨hp, error, herror, hbad⟩
    · rw [hy]
      rcases ih fun z hz => h z (List.mem_cons_of_mem _ hz) with
        ⟨hps, ys, hys, hgys⟩ | ⟨hps, error, herror, before, z, after, hxs, hbefore, hz, hbad⟩
      · rw [hys]
        refine .inl ⟨List.forall_mem_cons.2 ⟨hp, hps⟩, y :: ys, rfl, ?_⟩
        show g y :: ys.map g = x :: xs
        rw [hgy, hgys]
      · rw [herror]
        refine .inr ⟨fun hall => hps fun z hz => hall z (List.mem_cons_of_mem _ hz), error, rfl,
          x :: before, z, after, ?_, List.forall_mem_cons.2 ⟨hp, hbefore⟩, hz, hbad⟩
        rw [hxs, List.cons_append]
    · rw [herror]
      exact .inr ⟨fun hall => hp (hall x List.mem_cons_self), error, rfl, [], x, xs, rfl,
        fun _ hy => absurd hy List.not_mem_nil, hp, hbad⟩

end AtomicCss.Outcome
