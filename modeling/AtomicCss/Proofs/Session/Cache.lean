import AtomicCss.Session.Batch
import Mathlib.Data.List.Nodup

/-!
# A cache that grows

Jobs add their results to a cache and never replace what is there. So whatever is found under the
key of a job was there at first, or is the result of a job with this key.

* `Cache.get?_insertIfNew`: what is remembered after a compilation was.
* `Job.outcome`: the outcome of a job on the cache as it stands.
* `Cache.Grown`: a cache to which results of jobs were added, no key twice. `Grown.outcome_eq` says
  what is found in it, `Grown.sameEntries` when two of them are the same.
-/

namespace AtomicCss

namespace Cache

@[simp] theorem get?_countHit (c : Cache) (key : CacheKey) : c.countHit.get? key = c.get? key :=
  rfl

@[simp] theorem get?_countMiss (c : Cache) (key : CacheKey) : c.countMiss.get? key = c.get? key :=
  rfl

/-- A remembered compilation is never replaced. -/
theorem insertIfNew_of_some {c : Cache} {key : CacheKey} {earlier : Compiled}
    (h : c.get? key = some earlier) (compiled : Compiled) : c.insertIfNew key compiled = c := by
  simp only [insertIfNew, h]

theorem insertIfNew_of_none {c : Cache} {key : CacheKey} (h : c.get? key = none)
    (compiled : Compiled) :
    c.insertIfNew key compiled = { c with entries := (key, compiled) :: c.entries } := by
  simp only [insertIfNew, h]

/-- Remembering a compilation changes nothing under other keys, nor what was there before. -/
theorem get?_insertIfNew (c : Cache) (key other : CacheKey) (compiled : Compiled) :
    (c.insertIfNew key compiled).get? other =
      if other = key then some ((c.get? key).getD compiled) else c.get? other := by
  cases hget : c.get? key with
  | some earlier =>
    rw [insertIfNew_of_some hget]
    by_cases hkey : other = key
    · rw [if_pos hkey, hkey, hget]
      rfl
    · rw [if_neg hkey]
  | none =>
    rw [insertIfNew_of_none hget]
    by_cases hkey : other = key
    · simp [get?, hkey]
    · simp [get?, hkey, Ne.symm hkey]

end Cache

/-- The outcome of a job on the cache as it stands. -/
def Job.outcome (c : Cache) (j : Job) : Except NamespaceError Compiled :=
  (c.getOrCompile j.key j.compilation).1

/-- A job whose key is remembered gives what is remembered. -/
theorem Job.outcome_of_some {c : Cache} {j : Job} {compiled : Compiled}
    (h : c.get? j.key = some compiled) : j.outcome c = .ok compiled := by
  simp only [outcome, Cache.getOrCompile, h]

theorem Job.outcome_of_none {c : Cache} {j : Job} (h : c.get? j.key = none) :
    j.outcome c = j.compilation := by
  simp only [outcome, Cache.getOrCompile, h]
  cases j.compilation with
  | ok compiled => rfl
  | error error => rfl

/-- Jobs with one key give the same. -/
def Consistent (jobs : List Job) : Prop :=
  ∀ j ∈ jobs, ∀ k ∈ jobs, j.key = k.key → j.compilation = k.compilation

/-- Whether a cache has, beside what it had at first, only results of the jobs, none of them under a
key that there was already. -/
def Cache.Grown (jobs : List Job) (first c : Cache) : Prop :=
  ∃ added : List (CacheKey × Compiled), c.entries = added ++ first.entries ∧
    (added.map Prod.fst).Nodup ∧ ∀ entry ∈ added, first.get? entry.1 = none ∧
      ∃ j ∈ jobs, j.key = entry.1 ∧ j.compilation = .ok entry.2

namespace Cache

variable {jobs : List Job} {first c : Cache} {key : CacheKey} {compiled : Compiled}

theorem Grown.refl (jobs : List Job) (c : Cache) : c.Grown jobs c :=
  ⟨[], rfl, .nil, fun _ h => absurd h List.not_mem_nil⟩

/-- What is found in a cache that has grown: among what was added, or else as at first. -/
theorem get?_of_entries_eq {added : List (CacheKey × Compiled)}
    (h : c.entries = added ++ first.entries) (key : CacheKey) :
    c.get? key = ((added.find? (·.1 = key)).map Prod.snd).or (first.get? key) := by
  rw [get?, h, List.find?_append, Option.map_or]
  rfl

/-- The entries that were added are what the cache has under keys that it did not have at first. -/
theorem mem_added_iff {added : List (CacheKey × Compiled)}
    (hentries : c.entries = added ++ first.entries) (hnodup : (added.map Prod.fst).Nodup)
    (hnew : ∀ entry ∈ added, first.get? entry.1 = none) {entry : CacheKey × Compiled} :
    entry ∈ added ↔ first.get? entry.1 = none ∧ c.get? entry.1 = some entry.2 := by
  rw [get?_of_entries_eq hentries]
  constructor
  · intro hmem
    refine ⟨hnew entry hmem, ?_⟩
    obtain ⟨found, hfound⟩ : ∃ found, added.find? (·.1 = entry.1) = some found := by
      rw [← Option.isSome_iff_exists, List.find?_isSome]
      exact ⟨entry, hmem, by simp⟩
    -- Keys were added once each, so what is found is the entry itself.
    have hsame : found = entry := List.inj_on_of_nodup_map hnodup
      (List.mem_of_find?_eq_some hfound) hmem (by simpa using List.find?_some hfound)
    rw [hfound, hsame]
    rfl
  · rintro ⟨hnone, hget⟩
    rw [hnone, Option.or_none] at hget
    obtain ⟨found, hfound, hsnd⟩ := Option.map_eq_some_iff.1 hget
    have hfst : found.1 = entry.1 := by simpa using List.find?_some hfound
    have hsame : found = entry := Prod.ext hfst hsnd
    rw [← hsame]
    exact List.mem_of_find?_eq_some hfound

/-- What was there at first stays. -/
theorem Grown.get?_of_some (h : first.Grown jobs c) (hget : first.get? key = some compiled) :
    c.get? key = some compiled := by
  obtain ⟨added, hentries, -, hadded⟩ := h
  have hnone : added.find? (·.1 = key) = none := by
    refine List.find?_eq_none.2 fun entry hentry hkey => ?_
    have hfirst := (hadded entry hentry).1
    rw [of_decide_eq_true hkey, hget] at hfirst
    cases hfirst
  rw [get?_of_entries_eq hentries, hnone, hget]
  rfl

/-- What a grown cache lacks was not there at first. -/
theorem Grown.get?_eq_none (h : first.Grown jobs c) (hget : c.get? key = none) :
    first.get? key = none := by
  cases hfirst : first.get? key with
  | none => rfl
  | some compiled =>
    rw [h.get?_of_some hfirst] at hget
    cases hget

/-- What was not there at first is the result of a job. -/
theorem Grown.exists_job (h : first.Grown jobs c) (hfirst : first.get? key = none)
    (hget : c.get? key = some compiled) :
    ∃ j ∈ jobs, j.key = key ∧ j.compilation = .ok compiled := by
  obtain ⟨added, hentries, hnodup, hadded⟩ := h
  have hmem : (key, compiled) ∈ added :=
    (mem_added_iff hentries hnodup fun entry hentry => (hadded entry hentry).1).2 ⟨hfirst, hget⟩
  exact (hadded _ hmem).2

/-- What is under the key of a job is its outcome on the cache as it was at first. -/
theorem Grown.outcome_eq (h : first.Grown jobs c) (hjobs : Consistent jobs) {j : Job}
    (hj : j ∈ jobs) (hget : c.get? j.key = some compiled) : j.outcome first = .ok compiled := by
  cases hfirst : first.get? j.key with
  | some earlier =>
    have hsame := h.get?_of_some hfirst
    rw [hget] at hsame
    rw [Job.outcome_of_some hfirst, ← Option.some.inj hsame]
  | none =>
    obtain ⟨k, hk, hkey, hcompilation⟩ := h.exists_job hfirst hget
    rw [Job.outcome_of_none hfirst, hjobs j hj k hk hkey.symm, hcompilation]

/-- The step lemma: a cache grows by the result of a job that was not remembered at first. -/
theorem Grown.insertIfNew (h : first.Grown jobs c) {j : Job} (hj : j ∈ jobs)
    (hfirst : first.get? j.key = none) (hcompilation : j.compilation = .ok compiled) :
    first.Grown jobs (c.insertIfNew j.key compiled) := by
  cases hget : c.get? j.key with
  | some earlier =>
    rw [insertIfNew_of_some hget]
    exact h
  | none =>
    obtain ⟨added, hentries, hnodup, hadded⟩ := h
    rw [insertIfNew_of_none hget]
    refine ⟨(j.key, compiled) :: added, congrArg _ hentries, ?_, ?_⟩
    · refine List.nodup_cons.2 ⟨fun hmem => ?_, hnodup⟩
      obtain ⟨entry, hentry, hkey⟩ := List.mem_map.1 hmem
      have hthere := ((mem_added_iff hentries hnodup fun entry hentry =>
        (hadded entry hentry).1).1 hentry).2
      rw [hkey, hget] at hthere
      cases hthere
    · intro entry hentry
      rcases List.mem_cons.1 hentry with rfl | hentry
      · exact ⟨hfirst, j, hj, rfl, hcompilation⟩
      · exact hadded entry hentry

/-- Whether two caches remember the same compilations. -/
def SameEntries (c d : Cache) : Prop :=
  (∀ key, c.get? key = d.get? key) ∧ c.entries.Perm d.entries

/-- Two caches that have grown from one and answer alike have the same entries. -/
theorem Grown.sameEntries {d : Cache} (hc : first.Grown jobs c) (hd : first.Grown jobs d)
    (hget : ∀ key, c.get? key = d.get? key) : c.SameEntries d := by
  refine ⟨hget, ?_⟩
  obtain ⟨added, hentries, hnodup, hadded⟩ := hc
  obtain ⟨added', hentries', hnodup', hadded'⟩ := hd
  have hperm : added.Perm added' := by
    refine (List.perm_ext_iff_of_nodup (.of_map _ hnodup) (.of_map _ hnodup')).2 fun entry => ?_
    rw [mem_added_iff hentries hnodup fun entry hentry => (hadded entry hentry).1,
      mem_added_iff hentries' hnodup' fun entry hentry => (hadded' entry hentry).1, hget]
  rw [hentries, hentries']
  exact hperm.append_right _

end Cache

end AtomicCss
