import AtomicCss.Proofs.Session.Batch

/-!
# Histories of a session

A session carries out one command after the other, and a batch in whatever order its requests take
their turns. What it remembers at any time was compiled from definitions that it was asked for.

* `Session.Does`: what a session may do for a command; `Session.History`: the sessions to which
  commands may lead from the start of a build.
* `Cache.Faithful.getOrCompile`, `Batch.Genuine`: a single look-up and a batch remember only what
  was compiled.
* `Session.History.faithful`: what a session remembers, whether or not digests tell definitions
  apart.
* `Session.History.does_eq`: one command after a history; `Session.History.rules_eq`,
  `Session.History.answer_eq`: the rules that a session has collected and what it answers, if
  digests tell definitions apart.
* `Session.run_transparent`: every answer and all collected rules along a run and along a history.
-/

namespace AtomicCss

/-! ### What a batch adds to the cache -/

namespace Progress

variable {c d : Cache} {j : Job} {p q : Progress}

/-- A request has something to remember only when it has just compiled it. -/
theorem Turn.compilation_eq (h : Turn j c p q d) {compiled : Compiled}
    (hready : q = .ready compiled) : j.compilation = .ok compiled := by
  cases h with
  | compile hok =>
    cases hready
    exact hok
  | _ => cases hready

/-- A turn adds at most what the job gives. -/
theorem Turn.mem_entries (h : Turn j c p q d)
    (hp : ∀ compiled, p = .ready compiled → j.compilation = .ok compiled)
    {entry : CacheKey × Compiled} (hentry : entry ∈ d.entries) :
    entry ∈ c.entries ∨ (j.key = entry.1 ∧ j.compilation = .ok entry.2) := by
  cases h with
  | @remember compiled =>
    cases hget : c.get? j.key with
    | some earlier =>
      rw [Cache.insertIfNew_of_some hget] at hentry
      exact .inl hentry
    | none =>
      rw [Cache.insertIfNew_of_none hget] at hentry
      rcases List.mem_cons.1 hentry with rfl | hentry
      · exact .inr ⟨rfl, hp compiled rfl⟩
      · exact .inl hentry
  | _ => exact .inl hentry

end Progress

namespace Batch

variable {jobs : List Job} {first : Cache} {b : Batch}

/-- What is remembered along a batch was there at first or is the result of a job, and so is what
the requests are about to remember. -/
structure Genuine (jobs : List Job) (first : Cache) (b : Batch) : Prop where
  /-- The requests are for the jobs. -/
  jobs_mem : ∀ r ∈ b.requests, r.job ∈ jobs
  /-- What a request has to remember is the result of its job. -/
  ready : ∀ r ∈ b.requests, ∀ compiled,
    r.progress = .ready compiled → r.job.compilation = .ok compiled
  /-- So is what the cache has beside what it had at first. -/
  entries : ∀ entry ∈ b.cache.entries,
    entry ∈ first.entries ∨ ∃ j ∈ jobs, j.key = entry.1 ∧ j.compilation = .ok entry.2

/-- Nothing is added before the first turn. -/
theorem genuine_start (jobs : List Job) (first : Cache) :
    Genuine jobs first (start jobs first) where
  jobs_mem := by
    intro r hr
    obtain ⟨job, hjob, rfl⟩ := List.mem_map.1 hr
    exact hjob
  ready := by
    intro r hr compiled hready
    obtain ⟨job, -, rfl⟩ := List.mem_map.1 hr
    cases hready
  entries := fun entry hentry => .inl hentry

/-- The step lemma: a turn adds at most the result of its own job. -/
theorem Genuine.advance (h : Genuine jobs first b) (place : Nat) :
    Genuine jobs first (b.advance place) := by
  rcases advance_cases b place with hsame | ⟨before, r, after, hrequests, hadvance⟩
  · rw [hsame]
    exact h
  · have hturn := r.turn_step b.cache
    have hr : r ∈ b.requests := by simp [hrequests]
    -- Every request of the batch is the one that had its turn, or one of the others.
    have hcases : ∀ t ∈ before ++ (r.step b.cache).1 :: after,
        t = (r.step b.cache).1 ∨ t ∈ b.requests := by
      intro t ht
      simp only [List.mem_append, List.mem_cons] at ht
      simp only [hrequests, List.mem_append, List.mem_cons]
      tauto
    rw [hadvance]
    constructor
    · intro t ht
      rcases hcases t ht with rfl | ht
      · rw [Request.job_step]
        exact h.jobs_mem r hr
      · exact h.jobs_mem t ht
    · intro t ht compiled hready
      rcases hcases t ht with rfl | ht
      · rw [Request.job_step]
        exact hturn.compilation_eq hready
      · exact h.ready t ht compiled hready
    · intro entry hentry
      rcases hturn.mem_entries (h.ready r hr) hentry with hold | hnew
      · exact h.entries entry hold
      · exact .inr ⟨r.job, h.jobs_mem r hr, hnew⟩

/-- The run lemma: so does any schedule. -/
theorem Genuine.run (h : Genuine jobs first b) (schedule : List Nat) :
    Genuine jobs first (b.run schedule) := by
  induction schedule generalizing b with
  | nil => exact h
  | cons place schedule ih => exact ih (h.advance place)

end Batch

/-! ### What a look-up adds to the cache -/

namespace Cache

variable {options : Options} {ds es : List Definition} {c : Cache}

/-- Faithfulness to some definitions is faithfulness to more. -/
theorem Faithful.mono (hc : c.Faithful options ds) (hsub : ds ⊆ es) : c.Faithful options es := by
  intro entry hentry
  obtain ⟨name, d, hd, hkey, hok⟩ := hc entry hentry
  exact ⟨name, d, hsub hd, hkey, hok⟩

/-- Looking up or compiling one of the definitions keeps a cache faithful. -/
theorem Faithful.getOrCompile (hc : c.Faithful options ds) (name : String) {d : Definition}
    (hd : d ∈ ds) :
    (c.getOrCompile (.of options name d) (compileNamespace options name d)).2.Faithful
      options ds := by
  unfold Cache.getOrCompile
  split
  · exact hc
  · cases hfresh : compileNamespace options name d with
    | ok compiled =>
      have hmiss : c.countMiss.Faithful options ds := hc
      exact hmiss.insertIfNew hd hfresh
    | error error => exact hc

end Cache

namespace Session

variable {s t : Session} {ds : List Definition} {command : Command} {answer : Answer}

/-- A batch of the definitions keeps a cache faithful, by any schedule. -/
theorem compileAllBy_faithful (hs : s.cache.Faithful s.options ds)
    {items : List (String × Definition)} (hsub : items.map Prod.snd ⊆ ds) {schedule : List Nat}
    {outcomes : List (Except SessionError Compiled)}
    (h : s.compileAllBy schedule items = some (outcomes, t)) :
    t.cache.Faithful s.options ds := by
  obtain ⟨plain, -, heq⟩ := Option.map_eq_some_iff.1 h
  cases heq
  intro entry hentry
  have hgenuine := (Batch.genuine_start (s.jobs items) s.cache).run schedule
  rcases hgenuine.entries entry hentry with hold | ⟨j, hj, hkey, hok⟩
  · exact hs entry hold
  · obtain ⟨item, hitem, rfl⟩ := List.mem_map.1 hj
    exact ⟨item.1, item.2, hsub (List.mem_map_of_mem hitem), hkey.symm, hok⟩

/-! ### Histories -/

/-- What a session may do for a command: a batch is compiled by some schedule, and for all else
there is one way. -/
inductive Does (s : Session) : Command → Answer → Session → Prop where
  /-- The session carries out the command by itself. -/
  | step (command : Command) : Does s command (s.step command).1 (s.step command).2
  /-- The requests of a batch take their turns in some order. -/
  | schedule {items : List (String × Definition)} {turns : List Nat}
      {outcomes : List (Except SessionError Compiled)} {t : Session}
      (h : s.compileAllBy turns items = some (outcomes, t)) :
      Does s (.compileAll items) (.batch outcomes) t

/-- The sessions to which the commands may lead from the start of a build. -/
inductive History (options : Options) : List Command → Session → Prop where
  /-- A build starts without rules and with an empty cache. -/
  | start : History options [] (start options)
  /-- One more command is carried out. -/
  | does {done : List Command} {s t : Session} {command : Command} {answer : Answer} :
      History options done s → s.Does command answer t → History options (done ++ [command]) t

/-- By itself a session compiles a batch one by one. -/
theorem compileAllBy_of_step (s : Session) (items : List (String × Definition)) :
    s.compileAllBy (Batch.oneByOne 0 items.length) items =
      some ((s.compileAll items).1, (s.step (.compileAll items)).2) :=
  s.compileAllBy_oneByOne items

/-- Recording a construct touches the rules only. -/
theorem recordNamed_keeps (s : Session) (outcome : Except NamespaceError Named) :
    (s.recordNamed outcome).2.options = s.options ∧
      (s.recordNamed outcome).2.cache = s.cache := by
  rw [recordNamed_eq]
  exact ⟨rfl, rfl⟩

theorem restore_keeps (s : Session) (source : String) :
    (s.restore source).2.options = s.options ∧ (s.restore source).2.cache = s.cache := by
  rw [restore_eq]
  exact ⟨rfl, rfl⟩

/-- A command leaves the options as they are. -/
theorem options_step (s : Session) (command : Command) :
    (s.step command).2.options = s.options := by
  cases command with
  | compileJson name source =>
    show (s.compileJson name source).2.options = s.options
    unfold compileJson
    cases readDefinition name source <;> rfl
  | compileAll items =>
    obtain ⟨outcomes, -, heq⟩ := Option.map_eq_some_iff.1 (s.compileAllBy_of_step items)
    exact congrArg (·.2.options) heq.symm
  | keyframes d => exact (s.recordNamed_keeps _).1
  | positionTry d => exact (s.recordNamed_keeps _).1
  | viewTransitionClass d => exact (s.recordNamed_keeps _).1
  | restore source => exact (s.restore_keeps source).1
  | _ => rfl

/-- What a command remembers was compiled from its own definitions. -/
theorem step_faithful (hs : s.cache.Faithful s.options ds) (command : Command)
    (hsub : command.definitions ⊆ ds) : (s.step command).2.cache.Faithful s.options ds := by
  have hcompile : ∀ (name : String) {d : Definition}, d ∈ ds →
      (s.compile name d).2.cache.Faithful s.options ds :=
    fun name _ hd => hs.getOrCompile name hd
  cases command with
  | compile name d => exact hcompile name (hsub (List.mem_singleton_self d))
  | compileJson name source =>
    show (s.compileJson name source).2.cache.Faithful s.options ds
    unfold compileJson
    cases hread : readDefinition name source with
    | error error => exact hs
    | ok d => exact hcompile name (hsub (by simp [Command.definitions, hread, Except.toOption]))
  | compileAll items => exact compileAllBy_faithful hs hsub (s.compileAllBy_of_step items)
  | keyframes d => exact (s.recordNamed_keeps _).2.symm ▸ hs
  | positionTry d => exact (s.recordNamed_keeps _).2.symm ▸ hs
  | viewTransitionClass d => exact (s.recordNamed_keeps _).2.symm ▸ hs
  | restore source => exact (s.restore_keeps source).2.symm ▸ hs
  | clearCache => exact Cache.faithful_of_entries_nil rfl
  | _ => exact hs

/-- The step lemma: no command makes a faithful cache unfaithful, or changes the options. -/
theorem Does.faithful (h : s.Does command answer t) (hs : s.cache.Faithful s.options ds)
    (hsub : command.definitions ⊆ ds) :
    t.options = s.options ∧ t.cache.Faithful s.options ds := by
  cases h with
  | step => exact ⟨s.options_step command, step_faithful hs command hsub⟩
  | schedule hrun =>
    obtain ⟨outcomes, -, heq⟩ := Option.map_eq_some_iff.1 hrun
    exact ⟨congrArg (·.2.options) heq.symm, compileAllBy_faithful hs hsub hrun⟩

/-- What a session remembers was compiled, with its options, from definitions that it was asked
for. -/
theorem History.faithful {options : Options} {commands : List Command}
    (h : History options commands s) :
    s.options = options ∧ s.cache.Faithful options (commands.flatMap Command.definitions) := by
  induction h with
  | start => exact ⟨rfl, Cache.faithful_of_entries_nil rfl⟩
  | @does done s t command answer _ hdoes ih =>
    obtain ⟨rfl, hfaithful⟩ := ih
    refine hdoes.faithful (hfaithful.mono ?_) ?_
    · simp
    · simp

/-! ### Histories in which digests tell definitions apart -/

/-- Whatever the order of its turns, a batch has the outcomes of compiling afresh. -/
theorem compileAllBy_eq (hs : s.cache.Faithful s.options ds) (hds : DigestTellsApart ds)
    {items : List (String × Definition)} (hsub : items.map Prod.snd ⊆ ds) {schedule : List Nat}
    {outcomes : List (Except SessionError Compiled)}
    (h : s.compileAllBy schedule items = some (outcomes, t)) :
    Answer.batch outcomes = (Command.compileAll items).freshAnswer s.options s.rules ∧
      t.rules = (Command.compileAll items).rulesAfter s.options s.rules := by
  have hagree := compileAllBy_agree (hds.mono hsub) h (s.compileAllBy_of_step items)
  obtain ⟨cache, -, hstep⟩ := step_eq hs hds (.compileAll items) hsub
  constructor
  · rw [hagree.1]
    exact congrArg Prod.fst hstep
  · rw [hagree.2.2.1, hstep]

/-- What a session does for a command is what it would do without a cache. -/
theorem Does.eq (h : s.Does command answer t) (hs : s.cache.Faithful s.options ds)
    (hds : DigestTellsApart ds) (hsub : command.definitions ⊆ ds) :
    answer = command.freshAnswer s.options s.rules ∧
      t.rules = command.rulesAfter s.options s.rules := by
  cases h with
  | step =>
    obtain ⟨cache, -, hstep⟩ := step_eq hs hds command hsub
    rw [hstep]
    exact ⟨rfl, rfl⟩
  | schedule hrun => exact compileAllBy_eq hs hds hsub hrun

/-- The step lemma: a session that has the rules of its commands answers the next one as it would
without a cache, and has the rules of its commands again. -/
theorem History.does_eq {options : Options} {done : List Command} (h : History options done s)
    (hrules : s.rules = collected options done)
    (hds : DigestTellsApart ((done ++ [command]).flatMap Command.definitions))
    (hdoes : s.Does command answer t) :
    answer = command.freshAnswer options (collected options done) ∧
      t.rules = collected options (done ++ [command]) := by
  have hsub : done.flatMap Command.definitions ⊆
      (done ++ [command]).flatMap Command.definitions := by simp
  obtain ⟨rfl, hfaithful⟩ := h.faithful
  rw [collected_concat, ← hrules]
  exact hdoes.eq (hfaithful.mono hsub) hds (by simp)

/-- A session has the rules of its commands since the rules were last dropped. -/
theorem History.rules_eq {options : Options} {commands : List Command}
    (h : History options commands s)
    (hds : DigestTellsApart (commands.flatMap Command.definitions)) :
    s.rules = collected options commands := by
  induction h with
  | start => rfl
  | does hdone hdoes ih =>
    exact (hdone.does_eq (ih (hds.of_subset (List.subset_append_left _ _))) hds hdoes).2

/-- Whatever has led to a session, it answers a command as it would without a cache. -/
theorem History.answer_eq {options : Options} {done : List Command} (h : History options done s)
    (hds : DigestTellsApart ((done ++ [command]).flatMap Command.definitions))
    (hdoes : s.Does command answer t) :
    answer = command.freshAnswer options (collected options done) :=
  (h.does_eq (h.rules_eq (hds.of_subset (List.subset_append_left _ _))) hds hdoes).1

/-- A run is one of the histories of its commands. -/
theorem history_run (options : Options) (commands : List Command) :
    History options commands ((start options).run commands).2 := by
  -- By induction from the end, as the last command is carried out last.
  induction commands using List.reverseRecOn with
  | nil => exact .start
  | append_singleton done command ih =>
    rw [run_append]
    exact ih.does (.step command)

/-- If no two canonical texts of a run have one digest, then every command of the run is answered as
if nothing was remembered, and after any number of commands the session holds the rules of those
that succeeded since the rules were last dropped. The same holds of every session to which these
commands may have led, in whatever order the requests of batches took their turns. -/
theorem run_transparent (options : Options) (commands : List Command)
    (h : DigestTellsApart (commands.flatMap Command.definitions)) (i : Nat) :
    (((start options).run commands).1[i]? =
        commands[i]?.map (Command.freshAnswer options (collected options (commands.take i))) ∧
      ((start options).run (commands.take i)).2.rules = collected options (commands.take i)) ∧
    ∀ s, History options (commands.take i) s →
      s.rules = collected options (commands.take i) ∧
      ∀ command ∈ commands[i]?, ∀ answer t, s.Does command answer t →
        answer = command.freshAnswer options (collected options (commands.take i)) := by
  have hrules : ∀ s, History options (commands.take i) s →
      s.rules = collected options (commands.take i) := fun s hs =>
    hs.rules_eq (h.of_subset (List.take_subset i commands))
  have hanswer : ∀ s, History options (commands.take i) s → ∀ command ∈ commands[i]?, ∀ answer t,
      s.Does command answer t →
        answer = command.freshAnswer options (collected options (commands.take i)) := by
    intro s hs command hcommand answer t hdoes
    have hmem : command ∈ commands := List.mem_of_getElem? hcommand
    exact hs.answer_eq (h.of_subset (List.append_subset.2
      ⟨List.take_subset i commands, List.forall_mem_singleton.2 hmem⟩)) hdoes
  have hrun := history_run options (commands.take i)
  refine ⟨⟨?_, hrules _ hrun⟩, fun s hs => ⟨hrules s hs, hanswer s hs⟩⟩
  -- Past the end of the run there is neither a command nor an answer.
  by_cases hi : i < commands.length
  · have hsplit : commands = commands.take i ++ commands[i] :: commands.drop (i + 1) := by
      rw [List.getElem_cons_drop, List.take_append_drop]
    have hfound := getElem?_run (start options) (commands.take i) (commands.drop (i + 1))
      commands[i]
    rw [← hsplit, List.length_take_of_le hi.le] at hfound
    rw [hfound, List.getElem?_eq_getElem hi,
      hanswer _ hrun commands[i] (List.getElem?_eq_getElem hi) _ _ (.step _)]
    rfl
  · have hlen : commands.length ≤ i := Nat.le_of_not_lt hi
    rw [List.getElem?_eq_none hlen, List.getElem?_eq_none ((length_run _ _).le.trans hlen)]
    rfl

/-- The last of three definitions that are written alike is answered from memory, after the rules of
the others were taken. These may have been compiled at the same time, and then both of them were
missed. -/
theorem run_transparent_hit :
    let width (x : Float) : Definition := .ofEntries [("width", .number x)]
    let items := [("a", width 1.00001), ("a", width 1.00003)]
    let commands : List Command :=
      [.compileAll items, .take, .compile "a" (width 1.00002),
        .compileJson "b" "\x7b\"color\":\"red\"\x7d"]
    DigestTellsApart (commands.flatMap Command.definitions) ∧
      ((start {}).run commands).2.cache.hits = 2 ∧
      ((start {}).run commands).1[2]? = some (.compiled (freshOutcome {} "a" (width 1.00002))) ∧
      ((start {}).run (commands.take 3)).2.rules =
        rulesOf (freshOutcome {} "a" (width 1.00002)) ∧
      ∃ s, History {} (commands.take 2) s ∧ s.cache.misses = 2 ∧ s.rules = [] ∧
        ∀ answer t, s.Does (.compile "a" (width 1.00002)) answer t →
          answer = .compiled (freshOutcome {} "a" (width 1.00002)) := by
  intro width items commands
  have h : DigestTellsApart (commands.flatMap Command.definitions) := by
    unfold DigestTellsApart
    decide +kernel
  have hrules : collected {} (commands.take 3) = rulesOf (freshOutcome {} "a" (width 1.00002)) := by
    simp [collected, commands, List.rtakeWhile, Command.dropsRules, Command.freshRules]
  have hnone : collected {} (commands.take 2) = [] := by
    simp [collected, commands, List.rtakeWhile, Command.dropsRules]
  have hmisses : ((start {}).compileAllBy [0, 1, 0, 1, 0, 1, 0, 1] items).map
      (·.2.cache.misses) = some 2 := by
    decide +kernel
  obtain ⟨⟨outcomes, t⟩, hbatch, hmisses⟩ := Option.map_eq_some_iff.1 hmisses
  have hs : History {} (commands.take 2) (t.step .take).2 :=
    (History.start.does (.schedule hbatch)).does (.step .take)
  obtain ⟨⟨hanswer, -⟩, hhistory⟩ := run_transparent {} commands h 2
  obtain ⟨hdropped, hanswers⟩ := hhistory _ hs
  exact ⟨h, by decide +kernel, hanswer, (run_transparent {} commands h 3).1.2.trans hrules,
    _, hs, hmisses, hdropped.trans hnone, hanswers _ rfl⟩

end Session

end AtomicCss
