import AtomicCss.Proofs.Compile.Determinacy
import AtomicCss.Session.Basic
import Mathlib.Data.List.DropRight

/-!
# Remembered compilations change no answer

A session answers a command as if it had to compile everything afresh. What is remembered was
compiled from some definition of the same run, and a definition with the same key compiles to the
same result, unless two different canonical texts happen to have one digest.

* `Command.freshAnswer`, `Command.freshRules`: what a command answers and which rules it collects,
  said without a cache. `collected` puts the rules of a run together.
* `Cache.Faithful`: every remembered compilation is that of a definition of the run.
* `Session.step_eq`: what a command does in a session with a faithful cache.
* `Session.getElem?_run`: the answers of a run.
-/

namespace AtomicCss

/-! ### Commands without a cache -/

/-- The outcome of compiling a definition afresh. -/
def freshOutcome (options : Options) (name : String) (d : Definition) :
    Except SessionError Compiled :=
  (compileNamespace options name d).mapError .compile

/-- The outcome of compiling a definition from a JSON text afresh. -/
def freshJsonOutcome (options : Options) (name source : String) : Except SessionError Compiled :=
  Session.readDefinition name source >>= freshOutcome options name

/-- The name of a construct, or why there is none. -/
def namedOutcome (outcome : Except NamespaceError Named) : Except SessionError String :=
  (outcome.mapError .compile).map Named.name

/-- The rule of a construct, if there is one. -/
def namedRules : Except NamespaceError Named → List Rule
  | .ok named => [named.rule]
  | .error _ => []

/-- How many rules of a manifest can be used, with warnings. -/
def restoreOutcome (source : String) : Except SessionError (Nat × List String) :=
  match Manifest.ofText? source with
  | none => .error .json
  | some m => .ok (m.usableRules.length, m.warnings)

/-- The rules of a manifest that can be used. -/
def restoredRules (source : String) : List Rule :=
  match Manifest.ofText? source with
  | none => []
  | some m => m.usableRules

namespace Command

/-- The definitions that a command looks up among the remembered compilations. -/
def definitions : Command → List Definition
  | .compile _ d => [d]
  | .compileJson name source => (Session.readDefinition name source).toOption.toList
  | .compileAll items => items.map Prod.snd
  | _ => []

/-- What a command answers if everything is compiled afresh, given the rules collected so far. -/
def freshAnswer (options : Options) (collected : List Rule) : Command → Answer
  | .compile name d => .compiled (freshOutcome options name d)
  | .compileJson name source => .compiled (freshJsonOutcome options name source)
  | .compileAll items => .batch (items.map fun item => freshOutcome options item.1 item.2)
  | .defineVars group d => .compiled ((AtomicCss.defineVars options group d).mapError .compile)
  | .createTheme group d => .compiled ((AtomicCss.createTheme options group d).mapError .compile)
  | .keyframes d => .named (namedOutcome (AtomicCss.keyframes options d))
  | .positionTry d => .named (namedOutcome (AtomicCss.positionTry options d))
  | .viewTransitionClass d => .named (namedOutcome (AtomicCss.viewTransitionClass options d))
  | .restore source => .restored (restoreOutcome source)
  | .take => .rules collected
  | .append _ | .clear | .clearCache => .done

/-- The rules of a command, as far as it succeeds, if everything is compiled afresh. -/
def freshRules (options : Options) : Command → List Rule
  | .compile name d => Session.rulesOf (freshOutcome options name d)
  | .compileJson name source => Session.rulesOf (freshJsonOutcome options name source)
  | .compileAll items =>
    items.flatMap fun item => Session.rulesOf (freshOutcome options item.1 item.2)
  | .defineVars group d =>
    Session.rulesOf ((AtomicCss.defineVars options group d).mapError .compile)
  | .createTheme group d =>
    Session.rulesOf ((AtomicCss.createTheme options group d).mapError .compile)
  | .keyframes d => namedRules (AtomicCss.keyframes options d)
  | .positionTry d => namedRules (AtomicCss.positionTry options d)
  | .viewTransitionClass d => namedRules (AtomicCss.viewTransitionClass options d)
  | .append rules => rules
  | .restore source => restoredRules source
  | .clear | .take | .clearCache => []

/-- Whether a command drops the collected rules. -/
def dropsRules : Command → Bool
  | .clear | .take => true
  | _ => false

/-- The collected rules after a command. -/
def rulesAfter (options : Options) (collected : List Rule) (command : Command) : List Rule :=
  if command.dropsRules then [] else collected ++ command.freshRules options

end Command

/-- The rules of the commands since the rules were last dropped, in order. -/
def collected (options : Options) (commands : List Command) : List Rule :=
  (commands.rtakeWhile fun command => !command.dropsRules).flatMap (Command.freshRules options)

theorem collected_concat (options : Options) (done : List Command) (command : Command) :
    collected options (done ++ [command]) =
      command.rulesAfter options (collected options done) := by
  by_cases hdrops : command.dropsRules = true
  · simp [collected, Command.rulesAfter, hdrops]
  · simp [collected, Command.rulesAfter, hdrops]

/-- Definitions among which the digest tells apart whatever the canonical text does. -/
def DigestTellsApart (ds : List Definition) : Prop :=
  ∀ d ∈ ds, ∀ e ∈ ds, d.digest = e.digest → d.canonicalText = e.canonicalText

/-- Fewer definitions are told apart if more are. -/
theorem DigestTellsApart.mono {ds es : List Definition} (h : DigestTellsApart es) (hsub : ds ⊆ es) :
    DigestTellsApart ds :=
  fun d hd e he => h d (hsub hd) e (hsub he)

/-- The definitions of some commands are told apart if those of more commands are. -/
theorem DigestTellsApart.of_subset {done commands : List Command}
    (h : DigestTellsApart (commands.flatMap Command.definitions)) (hsub : done ⊆ commands) :
    DigestTellsApart (done.flatMap Command.definitions) := by
  refine h.mono fun d hd => ?_
  obtain ⟨command, hcommand, hd⟩ := List.mem_flatMap.1 hd
  exact List.mem_flatMap.2 ⟨command, hsub hcommand, hd⟩

/-- Definitions with one key compile to the same. -/
theorem compileNamespace_eq_of_key_eq {options : Options} {ds : List Definition}
    (hds : DigestTellsApart ds) {name name' : String} {d e : Definition} (hd : d ∈ ds) (he : e ∈ ds)
    (hkey : CacheKey.of options name d = CacheKey.of options name' e) :
    compileNamespace options name d = compileNamespace options name' e := by
  obtain ⟨hname, hdigest⟩ : name = name' ∧ d.digest = e.digest := by
    simp only [CacheKey.of, CacheKey.mk.injEq] at hkey
    exact ⟨hkey.1, hkey.2.1⟩
  have halike : d.Alike e := (d.canonicalText_eq_iff e).1 (hds d hd e he hdigest)
  have hagree : options.Agree options := ⟨rfl, rfl, rfl, rfl⟩
  rw [hname, compileNamespace_eq_of_alike hagree name' halike]

/-! ### The cache -/

namespace Cache

variable {options : Options} {ds : List Definition} {c : Cache}

/-- Every remembered compilation is that of one of the definitions, under its own key. -/
def Faithful (options : Options) (ds : List Definition) (c : Cache) : Prop :=
  ∀ entry ∈ c.entries, ∃ name, ∃ d ∈ ds,
    entry.1 = .of options name d ∧ compileNamespace options name d = .ok entry.2

/-- An empty cache is faithful to anything. -/
theorem faithful_of_entries_nil (h : c.entries = []) : c.Faithful options ds := by
  intro entry hentry
  rw [h] at hentry
  cases hentry

/-- What is remembered under the key of a definition is its compilation. -/
theorem Faithful.get?_of (hc : c.Faithful options ds) (hds : DigestTellsApart ds) {name : String}
    {d : Definition} (hd : d ∈ ds) {compiled : Compiled}
    (h : c.get? (.of options name d) = some compiled) :
    compileNamespace options name d = .ok compiled := by
  obtain ⟨entry, hfind, rfl⟩ := Option.map_eq_some_iff.1 h
  have hkey : entry.1 = .of options name d := by simpa using List.find?_some hfind
  -- The entry may stem from another definition, but that one has the same digest, so it is alike.
  obtain ⟨name', e, he, hkey', hcompiled⟩ := hc entry (List.mem_of_find?_eq_some hfind)
  rw [← compileNamespace_eq_of_key_eq hds he hd (hkey'.symm.trans hkey), hcompiled]

/-- Remembering the compilation of one of the definitions keeps a cache faithful. -/
theorem Faithful.insertIfNew (hc : c.Faithful options ds) {name : String} {d : Definition}
    (hd : d ∈ ds) {compiled : Compiled} (h : compileNamespace options name d = .ok compiled) :
    (c.insertIfNew (.of options name d) compiled).Faithful options ds := by
  unfold Cache.insertIfNew
  split
  · exact hc
  · intro entry hentry
    rcases List.mem_cons.1 hentry with rfl | hentry
    · exact ⟨name, d, hd, rfl, h⟩
    · exact hc entry hentry

/-- A hit or a miss, the outcome is that of compiling afresh. -/
theorem Faithful.getOrCompile_eq (hc : c.Faithful options ds) (hds : DigestTellsApart ds)
    (name : String) {d : Definition} (hd : d ∈ ds) :
    ∃ cache : Cache, cache.Faithful options ds ∧
      c.getOrCompile (.of options name d) (compileNamespace options name d) =
        (compileNamespace options name d, cache) := by
  unfold getOrCompile
  split
  case h_1 compiled hhit => exact ⟨c.countHit, hc, by rw [hc.get?_of hds hd hhit]⟩
  case h_2 =>
    cases hfresh : compileNamespace options name d with
    | ok compiled =>
      have hmiss : c.countMiss.Faithful options ds := hc
      exact ⟨_, hmiss.insertIfNew hd hfresh, rfl⟩
    | error error => exact ⟨c.countMiss, hc, rfl⟩

end Cache

/-! ### Sessions -/

namespace Session

variable {s : Session} {ds : List Definition}

/-- With a faithful cache a lookup answers as a fresh compilation does. -/
theorem compileCached_eq (hs : s.cache.Faithful s.options ds) (hds : DigestTellsApart ds)
    (name : String) {d : Definition} (hd : d ∈ ds) :
    ∃ cache : Cache, cache.Faithful s.options ds ∧
      s.compileCached name d = (freshOutcome s.options name d, { s with cache := cache }) := by
  obtain ⟨cache, hcache, heq⟩ := hs.getOrCompile_eq hds name hd
  refine ⟨cache, hcache, ?_⟩
  simp only [compileCached, heq, freshOutcome]

/-- A compilation answers as a fresh one does, and collects its rules. -/
theorem compile_eq (hs : s.cache.Faithful s.options ds) (hds : DigestTellsApart ds)
    (name : String) {d : Definition} (hd : d ∈ ds) :
    ∃ cache : Cache, cache.Faithful s.options ds ∧
      s.compile name d = (freshOutcome s.options name d,
        ⟨s.options, s.rules ++ rulesOf (freshOutcome s.options name d), cache⟩) := by
  obtain ⟨cache, hcache, heq⟩ := compileCached_eq hs hds name hd
  refine ⟨cache, hcache, ?_⟩
  simp only [compile, heq, append]

theorem compileJson_eq (hs : s.cache.Faithful s.options ds) (hds : DigestTellsApart ds)
    (name source : String) (hd : (Command.compileJson name source).definitions ⊆ ds) :
    ∃ cache : Cache, cache.Faithful s.options ds ∧
      s.compileJson name source = (freshJsonOutcome s.options name source,
        ⟨s.options, s.rules ++ rulesOf (freshJsonOutcome s.options name source), cache⟩) := by
  unfold compileJson freshJsonOutcome
  cases hread : readDefinition name source with
  | error error =>
    refine ⟨s.cache, hs, ?_⟩
    simp [bind, Except.bind, rulesOf]
  | ok d =>
    have hmem : d ∈ ds := hd (by simp [Command.definitions, hread, Except.toOption])
    exact compile_eq hs hds name hmem

/-- A batch is compiled item by item. -/
theorem compileAllCached_eq (hds : DigestTellsApart ds) :
    ∀ (items : List (String × Definition)) (s : Session), s.cache.Faithful s.options ds →
      items.map Prod.snd ⊆ ds → ∃ cache : Cache, cache.Faithful s.options ds ∧
        s.compileAllCached items =
          (items.map fun item => freshOutcome s.options item.1 item.2, { s with cache := cache })
  | [], s, hs, _ => ⟨s.cache, hs, rfl⟩
  | (name, d) :: items, s, hs, hsub => by
    obtain ⟨hd, hsub⟩ : d ∈ ds ∧ items.map Prod.snd ⊆ ds := List.cons_subset.1 hsub
    obtain ⟨cache, hcache, hfirst⟩ := compileCached_eq hs hds name hd
    obtain ⟨cache', hcache', hrest⟩ :=
      compileAllCached_eq hds items { s with cache := cache } hcache hsub
    refine ⟨cache', hcache', ?_⟩
    simp only [compileAllCached, hfirst, hrest, List.map_cons]

theorem recordNamed_eq (s : Session) (outcome : Except NamespaceError Named) :
    s.recordNamed outcome = (namedOutcome outcome, s.append (namedRules outcome)) := by
  cases outcome with
  | ok named => rfl
  | error error => simp [recordNamed, namedOutcome, namedRules, append, Except.mapError, Except.map]

/-- Restoring a manifest reads no remembered compilation. -/
theorem restore_eq (s : Session) (source : String) :
    s.restore source = (restoreOutcome source, s.append (restoredRules source)) := by
  unfold restore restoreOutcome restoredRules
  cases Manifest.ofText? source with
  | none => simp [append]
  | some m => rfl

/-- What a command does: its answer and its rules are fresh, and the cache stays faithful. -/
theorem step_eq (hs : s.cache.Faithful s.options ds) (hds : DigestTellsApart ds)
    (command : Command) (hd : command.definitions ⊆ ds) :
    ∃ cache : Cache, cache.Faithful s.options ds ∧
      s.step command = (command.freshAnswer s.options s.rules,
        ⟨s.options, command.rulesAfter s.options s.rules, cache⟩) := by
  cases command with
  | compile name d =>
    have hmem : d ∈ ds := hd (List.mem_singleton_self d)
    obtain ⟨cache, hcache, heq⟩ := compile_eq hs hds name hmem
    exact ⟨cache, hcache, by rw [step, heq]; rfl⟩
  | compileJson name source =>
    obtain ⟨cache, hcache, heq⟩ := compileJson_eq hs hds name source hd
    exact ⟨cache, hcache, by rw [step, heq]; rfl⟩
  | compileAll items =>
    obtain ⟨cache, hcache, heq⟩ := compileAllCached_eq hds items s hs hd
    refine ⟨cache, hcache, ?_⟩
    rw [step, compileAll, heq]
    simp [append, Command.freshAnswer, Command.rulesAfter, Command.dropsRules, Command.freshRules,
      List.flatMap_map]
  -- The constructs are compiled without the cache.
  | defineVars group d => exact ⟨s.cache, hs, rfl⟩
  | createTheme group d => exact ⟨s.cache, hs, rfl⟩
  | keyframes d => exact ⟨s.cache, hs, by rw [step, recordNamed_eq]; rfl⟩
  | positionTry d => exact ⟨s.cache, hs, by rw [step, recordNamed_eq]; rfl⟩
  | viewTransitionClass d => exact ⟨s.cache, hs, by rw [step, recordNamed_eq]; rfl⟩
  | append rules => exact ⟨s.cache, hs, rfl⟩
  | restore source => exact ⟨s.cache, hs, by rw [step, restore_eq]; rfl⟩
  | clear => exact ⟨s.cache, hs, rfl⟩
  | take => exact ⟨s.cache, hs, rfl⟩
  | clearCache =>
    refine ⟨s.cache.clear, Cache.faithful_of_entries_nil rfl, ?_⟩
    simp [step, clearCache, Command.freshAnswer, Command.rulesAfter, Command.dropsRules,
      Command.freshRules]

/-! ### Runs -/

/-- A run of commands is the run of its parts, one after the other. -/
theorem run_append (s : Session) (xs ys : List Command) :
    s.run (xs ++ ys) =
      ((s.run xs).1 ++ ((s.run xs).2.run ys).1, ((s.run xs).2.run ys).2) := by
  induction xs generalizing s with
  | nil => rfl
  | cons command xs ih => simp only [List.cons_append, run, ih]

theorem length_run (s : Session) (commands : List Command) :
    (s.run commands).1.length = commands.length := by
  induction commands generalizing s with
  | nil => rfl
  | cons command commands ih => simp only [run, List.length_cons, ih]

/-- The answer to a command is given by the session that the commands before it left. -/
theorem getElem?_run (s : Session) (done rest : List Command) (command : Command) :
    (s.run (done ++ command :: rest)).1[done.length]? =
      some ((s.run done).2.step command).1 := by
  rw [run_append, List.getElem?_append_right (length_run s done).le, length_run, Nat.sub_self]
  rfl

end Session

end AtomicCss
