import AtomicCss.Proofs.Outcome
import AtomicCss.Proofs.Session.History

/-!
# Commands that fail

A command that fails does so before it collects rules and before anything is remembered. At most it
has counted a miss, namely if it came as far as looking up a definition.

* `Answer.isFailure`: whether a command failed; `Command.AsksFor`: whether it looks up a definition.
* `Cache.getOrCompile_of_error`: what a look-up leaves that fails.
* `Session.step_of_failure`: the two ways in which a command fails.
* `Session.failure_leaves_session`: what a failure leaves along any history, with what is remembered
  there.
-/

namespace AtomicCss

/-- Whether a command failed. A batch answers for each definition and does not fail as a whole. -/
def Answer.isFailure : Answer → Bool
  | .compiled outcome => !outcome.isOk
  | .named outcome => !outcome.isOk
  | .restored outcome => !outcome.isOk
  | .batch _ | .rules _ | .done => false

/-- Whether a command asks for the compilation of a definition, which it has or reads from a JSON
text. -/
inductive Command.AsksFor (name : String) (d : Definition) : Command → Prop where
  /-- The definition is given. -/
  | compile : AsksFor name d (.compile name d)
  /-- The definition is read. -/
  | compileJson {source : String} (h : Session.readDefinition name source = .ok d) :
      AsksFor name d (.compileJson name source)

/-- A look-up fails if the compilation does, and then it has counted a miss. -/
theorem Cache.getOrCompile_of_error {c : Cache} {key : CacheKey}
    {compilation : Except NamespaceError Compiled} {error : NamespaceError}
    (h : (c.getOrCompile key compilation).1 = .error error) :
    c.getOrCompile key compilation = (.error error, c.countMiss) := by
  unfold Cache.getOrCompile at h ⊢
  cases hget : c.get? key with
  | some compiled => simp [hget] at h
  | none =>
    cases compilation with
    | ok compiled => simp [hget] at h
    | error cause =>
      simp only [hget, Except.error.injEq] at h
      rw [h]

namespace Session

variable {s t : Session} {command : Command} {answer : Answer}

theorem append_nil (s : Session) : s.append [] = s := by
  simp [append]

/-- A compilation that fails leaves a session as it was, but for the count of misses. -/
theorem compile_of_error {name : String} {d : Definition} {error : SessionError}
    (h : (s.compile name d).1 = .error error) :
    (s.compile name d).2 = { s with cache := s.cache.countMiss } := by
  -- The outcome is that of the look-up, with its error in other words.
  obtain ⟨cause, hcause⟩ : ∃ cause, (s.cache.getOrCompile (.of s.options name d)
      (compileNamespace s.options name d)).1 = .error cause := by
    cases hlookup : (s.cache.getOrCompile (.of s.options name d)
        (compileNamespace s.options name d)).1 with
    | ok compiled => simp [compile, compileCached, hlookup, Except.mapError] at h
    | error cause => exact ⟨cause, rfl⟩
  simp [compile, compileCached, Cache.getOrCompile_of_error hcause, Except.mapError, rulesOf,
    append_nil]

/-- Rules that could not be made are not recorded. -/
theorem record_of_error {outcome : Except NamespaceError Compiled} {error : SessionError}
    (h : (s.record outcome).1 = .error error) : (s.record outcome).2 = s := by
  have hrules : rulesOf (outcome.mapError SessionError.compile) = [] := by
    rw [show outcome.mapError SessionError.compile = .error error from h, rulesOf]
  rw [record, hrules, append_nil]

theorem recordNamed_of_error {outcome : Except NamespaceError Named} {error : SessionError}
    (h : (s.recordNamed outcome).1 = .error error) : (s.recordNamed outcome).2 = s := by
  cases outcome with
  | ok named => cases h
  | error cause => rfl

/-- A manifest that cannot be read changes nothing. -/
theorem restore_of_error {source : String} {error : SessionError}
    (h : (s.restore source).1 = .error error) : (s.restore source).2 = s := by
  unfold restore at h ⊢
  cases hread : Manifest.ofText? source with
  | none => rfl
  | some m => simp [hread] at h

/-- A command that fails leaves the session as it is, or it asks for a definition that does not
compile and has counted a miss. -/
theorem step_of_failure (s : Session) (command : Command)
    (hfailed : (s.step command).1.isFailure = true) :
    ((s.step command).2 = s ∧ ∀ name d, ¬ command.AsksFor name d) ∨
      ((s.step command).2 = { s with cache := s.cache.countMiss } ∧
        ∃ name d, command.AsksFor name d) := by
  -- Only a compilation asks the cache; the other commands fail before they change anything.
  cases command with
  | compile name d =>
    obtain ⟨error, herror⟩ := Outcome.exists_error_of_not_isOk hfailed
    exact .inr ⟨compile_of_error herror, name, d, .compile⟩
  | compileJson name source =>
    simp only [step, compileJson] at hfailed ⊢
    cases hread : readDefinition name source with
    | error error =>
      refine .inl ⟨rfl, ?_⟩
      rintro name' d ⟨⟩
      simp_all
    | ok d =>
      simp only [hread] at hfailed ⊢
      obtain ⟨error, herror⟩ := Outcome.exists_error_of_not_isOk hfailed
      exact .inr ⟨compile_of_error herror, name, d, .compileJson hread⟩
  | compileAll items => cases hfailed
  | defineVars group d =>
    obtain ⟨error, herror⟩ := Outcome.exists_error_of_not_isOk hfailed
    exact .inl ⟨record_of_error herror, by rintro _ _ ⟨⟩⟩
  | createTheme group d =>
    obtain ⟨error, herror⟩ := Outcome.exists_error_of_not_isOk hfailed
    exact .inl ⟨record_of_error herror, by rintro _ _ ⟨⟩⟩
  | keyframes d =>
    obtain ⟨error, herror⟩ := Outcome.exists_error_of_not_isOk hfailed
    exact .inl ⟨recordNamed_of_error herror, by rintro _ _ ⟨⟩⟩
  | positionTry d =>
    obtain ⟨error, herror⟩ := Outcome.exists_error_of_not_isOk hfailed
    exact .inl ⟨recordNamed_of_error herror, by rintro _ _ ⟨⟩⟩
  | viewTransitionClass d =>
    obtain ⟨error, herror⟩ := Outcome.exists_error_of_not_isOk hfailed
    exact .inl ⟨recordNamed_of_error herror, by rintro _ _ ⟨⟩⟩
  | restore source =>
    obtain ⟨error, herror⟩ := Outcome.exists_error_of_not_isOk hfailed
    exact .inl ⟨restore_of_error herror, by rintro _ _ ⟨⟩⟩
  | append rules => cases hfailed
  | clear => cases hfailed
  | take => cases hfailed
  | clearCache => cases hfailed

/-- Along any history, what a session remembers was compiled with its options from a definition
that it was asked for, under the key of this definition. If it then fails to carry out a command, it
keeps its rules, its remembered compilations and its count of hits. The count of misses grows by one
if the command asked for a definition, and stays otherwise. -/
theorem failure_leaves_session {options : Options} {commands : List Command} {s : Session}
    (h : History options commands s) :
    (∀ entry ∈ s.cache.entries, ∃ name, ∃ d ∈ commands.flatMap Command.definitions,
        entry.1 = .of options name d ∧ compileNamespace options name d = .ok entry.2) ∧
      ∀ command answer t, s.Does command answer t → answer.isFailure = true →
        t.options = s.options ∧ t.rules = s.rules ∧ t.cache.entries = s.cache.entries ∧
          t.cache.hits = s.cache.hits ∧
          ((t.cache.misses = s.cache.misses ∧ ∀ name d, ¬ command.AsksFor name d) ∨
            (t.cache.misses = s.cache.misses + 1 ∧ ∃ name d, command.AsksFor name d)) := by
  refine ⟨h.faithful.2, ?_⟩
  intro command answer t hdoes hfailed
  cases hdoes with
  | schedule hrun => cases hfailed
  | step =>
    rcases s.step_of_failure command hfailed with ⟨hsame, hasks⟩ | ⟨hmiss, hasks⟩
    · rw [hsame]
      exact ⟨rfl, rfl, rfl, rfl, .inl ⟨rfl, hasks⟩⟩
    · rw [hmiss]
      exact ⟨rfl, rfl, rfl, rfl, .inr ⟨rfl, hasks⟩⟩

/-- A definition that does not compile, asked for when another one is remembered. -/
theorem failure_leaves_session_unclosed :
    let red : Definition := .ofEntries [("color", .text "red")]
    let broken : Definition := .ofEntries [("width", .text "calc(1px")]
    let s := ((start {}).step (.compile "a" red)).2
    let t := (s.step (.compile "a" broken)).2
    s.cache.size = 1 ∧ s.rules.length = 1 ∧
      (s.step (.compile "a" broken)).1.isFailure = true ∧ t.rules = s.rules ∧
      t.cache.entries = s.cache.entries ∧ t.cache.hits = s.cache.hits ∧
      t.cache.misses = s.cache.misses + 1 := by
  intro red broken s t
  have hs : History {} [.compile "a" red] s := .does .start (.step _)
  have hfailed : (s.step (.compile "a" broken)).1.isFailure = true := by decide +kernel
  obtain ⟨-, hrules, hentries, hhits, hmisses⟩ :=
    (failure_leaves_session hs).2 _ _ t (.step _) hfailed
  refine ⟨by decide +kernel, by decide +kernel, hfailed, hrules, hentries, hhits, ?_⟩
  rcases hmisses with ⟨-, hasks⟩ | ⟨hmisses, -⟩
  · exact absurd .compile (hasks "a" broken)
  · exact hmisses

end Session

end AtomicCss
