import AtomicCss.Proofs.Session.Cache
import AtomicCss.Proofs.Session.Transparency

/-!
# Batches that are compiled at the same time, or one by one

The requests of a batch share the cache. One that misses may compile what another has compiled
already and not yet remembered, and then the entry of the one that comes first is the outcome of
both. This makes no difference to the outcomes: whatever a request finds was there at first or is
the result of a job with the same key, and such jobs give the same. So the order of the turns shows
in the numbers of hits and misses only, and not in their sum.

* `Progress.Turn`: what a turn does. All invariants are read off it: `Turn.get?_eq`,
  `Turn.counts_eq`, `Turn.sound`, `Turn.turnsLeft_le`.
* `Batch.Inv`: what holds at any time, by `Inv.advance` after one turn and by `Inv.run` after a
  schedule. `Inv.outcomes_eq`, `Inv.sameEntries` and `Inv.counts_done` say what it comes to when all
  requests are done, and `Batch.exists_outcomes` when that is.
* `Session.compileAllBy_oneByOne`: the schedule by which the session compiles a batch by itself.
* `Session.compileAllBy_eq_serial`: any schedule beside compiling one after the other.
-/

namespace AtomicCss

/-! ### One turn of a request -/

namespace Progress

/-- Whether the hit or miss of a request is counted. -/
def isCounted : Progress → Bool
  | .waiting | .found _ | .missed => false
  | .compiling | .ready _ | .done _ => true

/-- The turns that a request takes at most from here on. -/
def turnsLeft : Progress → Nat
  | .waiting => Request.mostTurns
  | .missed => 3
  | .compiling => 2
  | .found _ | .ready _ => 1
  | .done _ => 0

/-- What is known when a request has come this far, given the cache as it was at first and as it is
now. -/
def Sound (first c : Cache) (j : Job) : Progress → Prop
  | .waiting => True
  | .found compiled => c.get? j.key = some compiled
  | .missed | .compiling => first.get? j.key = none
  | .ready compiled => first.get? j.key = none ∧ j.compilation = .ok compiled
  | .done outcome => j.outcome first = outcome ∧
      ∀ compiled, outcome = .ok compiled → c.get? j.key = some compiled

/-- The turns that there are: how far a request comes, and what becomes of the cache. -/
inductive Turn (j : Job) (c : Cache) : Progress → Progress → Cache → Prop where
  /-- There is a compilation under the key. -/
  | find {compiled : Compiled} (h : c.get? j.key = some compiled) :
      Turn j c .waiting (.found compiled) c
  /-- There is none. -/
  | miss (h : c.get? j.key = none) : Turn j c .waiting .missed c
  /-- The hit is counted. -/
  | countHit {compiled : Compiled} : Turn j c (.found compiled) (.done (.ok compiled)) c.countHit
  /-- The miss is counted. -/
  | countMiss : Turn j c .missed .compiling c.countMiss
  /-- The definition is compiled. -/
  | compile {compiled : Compiled} (h : j.compilation = .ok compiled) :
      Turn j c .compiling (.ready compiled) c
  /-- The definition cannot be compiled. -/
  | fail {error : NamespaceError} (h : j.compilation = .error error) :
      Turn j c .compiling (.done (.error error)) c
  /-- The compilation is remembered, unless there is one by now, which is taken instead. -/
  | remember {compiled : Compiled} : Turn j c (.ready compiled)
      (.done (.ok ((c.get? j.key).getD compiled))) (c.insertIfNew j.key compiled)
  /-- Nothing is left to do. -/
  | rest {outcome : Except NamespaceError Compiled} : Turn j c (.done outcome) (.done outcome) c

variable {jobs : List Job} {first c d : Cache} {j : Job} {p q : Progress}

/-- What is known stays true whatever others remember. -/
theorem Sound.mono (h : p.Sound first c j)
    (hkept : ∀ key compiled, c.get? key = some compiled → d.get? key = some compiled) :
    p.Sound first d j := by
  cases p with
  | waiting => trivial
  | found compiled => exact hkept _ _ h
  | missed => exact h
  | compiling => exact h
  | ready compiled => exact h
  | done outcome => exact ⟨h.1, fun compiled hok => hkept _ _ (h.2 compiled hok)⟩

/-- A turn leaves what is remembered. -/
theorem Turn.get?_eq (h : Turn j c p q d) {key : CacheKey} {compiled : Compiled}
    (hget : c.get? key = some compiled) : d.get? key = some compiled := by
  cases h with
  | remember =>
    rw [Cache.get?_insertIfNew]
    split
    case isTrue hkey =>
      rw [← hkey, hget]
      rfl
    case isFalse => exact hget
  | _ => exact hget

/-- The counts grow when a request gets counted. -/
theorem Turn.counts_eq (h : Turn j c p q d) :
    d.hits + d.misses + (if p.isCounted then 1 else 0) =
      c.hits + c.misses + (if q.isCounted then 1 else 0) := by
  cases h with
  | countHit => simp [isCounted, Cache.countHit, Nat.add_right_comm]
  | countMiss => simp [isCounted, Cache.countMiss, Nat.add_assoc]
  | remember =>
    simp only [isCounted, Cache.insertIfNew]
    split <;> rfl
  | _ => rfl

/-- Every turn brings a request nearer to its end. -/
theorem Turn.turnsLeft_le (h : Turn j c p q d) : q.turnsLeft ≤ p.turnsLeft - 1 := by
  cases h <;> simp [turnsLeft, Request.mostTurns]

/-- A turn adds no more to the cache than the result of its job, and what is known stays true. -/
theorem Turn.sound (h : Turn j c p q d) (hjobs : Consistent jobs) (hj : j ∈ jobs)
    (hgrown : first.Grown jobs c) (hp : p.Sound first c j) :
    first.Grown jobs d ∧ q.Sound first d j := by
  cases h with
  | find hget => exact ⟨hgrown, hget⟩
  | miss hget => exact ⟨hgrown, hgrown.get?_eq_none hget⟩
  | countHit =>
    refine ⟨hgrown, hgrown.outcome_eq hjobs hj hp, ?_⟩
    rintro _ ⟨⟩
    exact hp
  | countMiss => exact ⟨hgrown, hp⟩
  | compile hok => exact ⟨hgrown, hp, hok⟩
  | fail herror =>
    refine ⟨hgrown, (Job.outcome_of_none hp).trans herror, ?_⟩
    rintro _ ⟨⟩
  | @remember compiled =>
    -- The key may have got an entry in the meantime, which is the result of a job with this key.
    have hgrown' := hgrown.insertIfNew hj hp.1 hp.2
    have hget : (c.insertIfNew j.key compiled).get? j.key =
        some ((c.get? j.key).getD compiled) := by
      rw [Cache.get?_insertIfNew, if_pos rfl]
    refine ⟨hgrown', hgrown'.outcome_eq hjobs hj hget, ?_⟩
    rintro _ ⟨⟩
    exact hget
  | rest => exact ⟨hgrown, hp⟩

end Progress

namespace Request

/-- A step of a request is one of the turns that there are. -/
theorem turn_step (r : Request) (c : Cache) :
    Progress.Turn r.job c r.progress (r.step c).1.progress (r.step c).2 := by
  obtain ⟨job, progress⟩ := r
  cases progress with
  | waiting =>
    simp only [step]
    split
    case h_1 hget => exact .find hget
    case h_2 hget => exact .miss hget
  | found compiled => exact .countHit
  | missed => exact .countMiss
  | compiling =>
    simp only [step]
    split
    case h_1 hok => exact .compile hok
    case h_2 herror => exact .fail herror
  | ready compiled => exact .remember
  | done outcome => exact .rest

theorem job_step (r : Request) (c : Cache) : (r.step c).1.job = r.job := by
  unfold step
  split
  case h_1 => split <;> rfl
  case h_4 => split <;> rfl
  all_goals rfl

/-- A request has an outcome exactly if it is done. -/
theorem outcome?_eq_some {r : Request} {outcome : Except NamespaceError Compiled} :
    r.outcome? = some outcome ↔ r.progress = .done outcome := by
  obtain ⟨job, progress⟩ := r
  cases progress <;> simp [outcome?]

end Request

/-! ### Runs of a batch -/

namespace Batch

variable {jobs : List Job} {first : Cache} {b : Batch}

/-- A turn of a batch is the turn of one of its requests, or nothing. -/
theorem advance_cases (b : Batch) (place : Nat) :
    b.advance place = b ∨ ∃ before r after, b.requests = before ++ r :: after ∧
      b.advance place = ⟨before ++ (r.step b.cache).1 :: after, (r.step b.cache).2⟩ := by
  unfold advance
  cases hr : b.requests[place]? with
  | none => exact .inl rfl
  | some r =>
    obtain ⟨hplace, hr⟩ := List.getElem?_eq_some_iff.1 hr
    refine .inr ⟨b.requests.take place, r, b.requests.drop (place + 1), ?_, ?_⟩
    · rw [← hr, List.getElem_cons_drop, List.take_append_drop]
    · simp only [List.set_eq_take_append_cons_drop, if_pos hplace]

/-- What holds at any time of a batch that started with the given cache. -/
structure Inv (jobs : List Job) (first : Cache) (b : Batch) : Prop where
  /-- The jobs are those of the batch, in order. -/
  jobs_eq : b.requests.map Request.job = jobs
  /-- The cache has grown by results of the jobs. -/
  grown : first.Grown jobs b.cache
  /-- What the requests know is true. -/
  sound : ∀ r ∈ b.requests, r.progress.Sound first b.cache r.job
  /-- The counts have grown by the number of requests that are counted. -/
  counts_eq : b.cache.hits + b.cache.misses =
    first.hits + first.misses + b.requests.countP (·.progress.isCounted)

/-- The invariant holds before any turn is taken. -/
theorem inv_start (jobs : List Job) (first : Cache) : Inv jobs first (start jobs first) where
  jobs_eq := by simp [start, Function.comp_def]
  grown := .refl jobs first
  sound r hr := by
    obtain ⟨job, -, rfl⟩ := List.mem_map.1 hr
    trivial
  counts_eq := by
    have hnone : (start jobs first).requests.countP (·.progress.isCounted) = 0 := by
      simp [start, List.countP_eq_zero, Progress.isCounted]
    rw [hnone]
    rfl

/-- The step lemma: a turn of any request keeps the invariant. -/
theorem Inv.advance (h : Inv jobs first b) (hjobs : Consistent jobs) (place : Nat) :
    Inv jobs first (b.advance place) := by
  rcases advance_cases b place with hsame | ⟨before, r, after, hrequests, hadvance⟩
  · rw [hsame]
    exact h
  · have hturn := r.turn_step b.cache
    have hr : r ∈ b.requests := by simp [hrequests]
    have hjob : r.job ∈ jobs := h.jobs_eq ▸ List.mem_map_of_mem hr
    -- The request whose turn it is: what it adds is new, and what it knows is still true.
    obtain ⟨hgrown, hsound⟩ := hturn.sound hjobs hjob h.grown (h.sound r hr)
    rw [hadvance]
    refine ⟨?_, hgrown, ?_, ?_⟩
    · rw [← h.jobs_eq, hrequests]
      simp [Request.job_step]
    · intro t ht
      -- The other requests know what they knew, and the cache still has it.
      have hother : t ∈ b.requests → t.progress.Sound first (r.step b.cache).2 t.job :=
        fun ht => (h.sound t ht).mono fun _ _ => hturn.get?_eq
      rcases List.mem_append.1 ht with ht | ht
      · exact hother (by simp [hrequests, ht])
      · rcases List.mem_cons.1 ht with rfl | ht
        · rw [Request.job_step]
          exact hsound
        · exact hother (by simp [hrequests, ht])
    · have hcounts := hturn.counts_eq
      have hbefore := h.counts_eq
      rw [hrequests, List.countP_append, List.countP_cons] at hbefore
      simp only [List.countP_append, List.countP_cons]
      omega

theorem run_append (b : Batch) (schedule later : List Nat) :
    b.run (schedule ++ later) = (b.run schedule).run later :=
  List.foldl_append

/-- The run lemma: the invariant holds after any schedule. -/
theorem Inv.run (h : Inv jobs first b) (hjobs : Consistent jobs) (schedule : List Nat) :
    Inv jobs first (b.run schedule) := by
  induction schedule generalizing b with
  | nil => exact h
  | cons place schedule ih => exact ih (h.advance hjobs place)

/-! ### Batches that are done -/

/-- A batch has outcomes exactly if all of its requests are done, in their order. -/
theorem outcomes?_eq_some {outcomes : List (Except NamespaceError Compiled)} :
    b.outcomes? = some outcomes ↔ b.requests.map Request.progress = outcomes.map .done := by
  unfold outcomes?
  induction b.requests generalizing outcomes with
  | nil => cases outcomes <;> simp
  | cons r requests ih =>
    cases outcomes with
    | nil => simp [List.mapM_cons, Option.bind_eq_some_iff]
    | cons outcome outcomes =>
      simp [List.mapM_cons, Option.bind_eq_some_iff, Request.outcome?_eq_some, ih]

theorem exists_done_of_mem {outcomes : List (Except NamespaceError Compiled)}
    (hdone : b.outcomes? = some outcomes) {r : Request} (hr : r ∈ b.requests) :
    ∃ outcome, r.progress = .done outcome := by
  have hmem : r.progress ∈ outcomes.map Progress.done :=
    outcomes?_eq_some.1 hdone ▸ List.mem_map_of_mem hr
  obtain ⟨outcome, -, houtcome⟩ := List.mem_map.1 hmem
  exact ⟨outcome, houtcome.symm⟩

variable {outcomes : List (Except NamespaceError Compiled)}

/-- A request of a batch that is done has the outcome that its job had at first, and what it
compiled is remembered. -/
theorem Inv.progress_eq (h : Inv jobs first b) (hdone : b.outcomes? = some outcomes) {r : Request}
    (hr : r ∈ b.requests) :
    r.progress = .done (r.job.outcome first) ∧
      ∀ compiled, r.job.outcome first = .ok compiled →
        b.cache.get? r.job.key = some compiled := by
  obtain ⟨outcome, houtcome⟩ := exists_done_of_mem hdone hr
  have hsound := h.sound r hr
  rw [houtcome] at hsound
  obtain ⟨rfl, hkept⟩ := hsound
  exact ⟨houtcome, hkept⟩

/-- The outcomes of a batch that is done are those that its jobs had at first. -/
theorem Inv.outcomes_eq (h : Inv jobs first b) (hdone : b.outcomes? = some outcomes) :
    outcomes = jobs.map (Job.outcome first) := by
  have hprogress : b.requests.map Request.progress =
      (jobs.map (Job.outcome first)).map Progress.done := by
    rw [← h.jobs_eq, List.map_map, List.map_map]
    exact List.map_congr_left fun r hr => (h.progress_eq hdone hr).1
  have hall := outcomes?_eq_some.2 hprogress
  rw [hdone] at hall
  exact Option.some.inj hall

/-- When a batch is done, what its jobs gave is remembered. -/
theorem Inv.get?_eq_some (h : Inv jobs first b) (hdone : b.outcomes? = some outcomes) {j : Job}
    (hj : j ∈ jobs) {compiled : Compiled} (hok : j.outcome first = .ok compiled) :
    b.cache.get? j.key = some compiled := by
  rw [← h.jobs_eq] at hj
  obtain ⟨r, hr, rfl⟩ := List.mem_map.1 hj
  exact (h.progress_eq hdone hr).2 compiled hok

/-- When a batch is done, each of its jobs is counted. -/
theorem Inv.counts_done (h : Inv jobs first b) (hdone : b.outcomes? = some outcomes) :
    b.cache.hits + b.cache.misses = first.hits + first.misses + jobs.length := by
  have hall : b.requests.countP (·.progress.isCounted) = b.requests.length := by
    refine List.countP_eq_length.2 fun r hr => ?_
    rw [(h.progress_eq hdone hr).1]
    rfl
  rw [h.counts_eq, hall, ← h.jobs_eq, List.length_map]

/-- Batches of the same jobs that are done remember the same. -/
theorem Inv.sameEntries {b' : Batch} {outcomes' : List (Except NamespaceError Compiled)}
    (h : Inv jobs first b) (hdone : b.outcomes? = some outcomes) (h' : Inv jobs first b')
    (hdone' : b'.outcomes? = some outcomes') : b.cache.SameEntries b'.cache := by
  have hkept {b b' : Batch} {outcomes' : List (Except NamespaceError Compiled)}
      (h : Inv jobs first b) (h' : Inv jobs first b') (hdone' : b'.outcomes? = some outcomes')
      {key : CacheKey} {compiled : Compiled} (hget : b.cache.get? key = some compiled) :
      b'.cache.get? key = some compiled := by
    cases hfirst : first.get? key with
    | some earlier =>
      rw [h.grown.get?_of_some hfirst] at hget
      rw [h'.grown.get?_of_some hfirst, hget]
    | none =>
      obtain ⟨j, hj, rfl, hok⟩ := h.grown.exists_job hfirst hget
      exact h'.get?_eq_some hdone' hj ((Job.outcome_of_none hfirst).trans hok)
  refine h.grown.sameEntries h'.grown fun key => Option.ext fun compiled => ?_
  exact ⟨hkept h h' hdone', hkept h' h hdone⟩

/-! ### Every schedule comes to an end -/

/-- A turn changes the request that takes it and no other. -/
theorem getElem?_advance (b : Batch) (turn place : Nat) :
    (b.advance turn).requests[place]? =
      if turn = place then b.requests[place]?.map fun r => (r.step b.cache).1
      else b.requests[place]? := by
  unfold advance
  split
  case h_1 hnone =>
    split
    case isTrue heq => rw [← heq, hnone]; rfl
    case isFalse => rfl
  case h_2 r hr =>
    have hplace := (List.getElem?_eq_some_iff.1 hr).1
    rw [List.getElem?_set, if_pos hplace]
    split
    case isTrue heq => rw [← heq, hr]; rfl
    case isFalse => rfl

/-- Each turn of a request brings it nearer to its end. -/
theorem turnsLeft_run (b : Batch) (schedule : List Nat) {place : Nat} {r : Request}
    (hr : (b.run schedule).requests[place]? = some r) :
    ∃ r₀, b.requests[place]? = some r₀ ∧
      r.progress.turnsLeft ≤ r₀.progress.turnsLeft - schedule.count place := by
  induction schedule generalizing b with
  | nil => exact ⟨r, hr, Nat.le_refl _⟩
  | cons turn schedule ih =>
    obtain ⟨r₁, hr₁, hleft⟩ := ih (b.advance turn) hr
    rw [getElem?_advance] at hr₁
    by_cases hturn : turn = place
    · rw [if_pos hturn] at hr₁
      obtain ⟨r₀, hr₀, rfl⟩ := Option.map_eq_some_iff.1 hr₁
      refine ⟨r₀, hr₀, ?_⟩
      have hstep := (r₀.turn_step b.cache).turnsLeft_le
      rw [hturn, List.count_cons_self]
      omega
    · rw [if_neg hturn] at hr₁
      refine ⟨r₁, hr₁, ?_⟩
      rw [List.count_cons_of_ne hturn]
      exact hleft

/-- A batch has outcomes once all of its requests are done. -/
theorem exists_outcomes_of_done (h : ∀ r ∈ b.requests, ∃ outcome, r.progress = .done outcome) :
    ∃ outcomes, b.outcomes? = some outcomes := by
  simp only [outcomes?_eq_some]
  revert h
  induction b.requests with
  | nil => exact fun _ => ⟨[], rfl⟩
  | cons r requests ih =>
    intro h
    obtain ⟨outcome, houtcome⟩ := h r (by simp)
    obtain ⟨outcomes, houtcomes⟩ := ih fun t ht => h t (by simp [ht])
    exact ⟨outcome :: outcomes, by rw [List.map_cons, houtcome, houtcomes, List.map_cons]⟩

/-- A batch is done when each of its requests has had its turns. -/
theorem exists_outcomes (jobs : List Job) (first : Cache) {schedule : List Nat}
    (h : ∀ place < jobs.length, Request.mostTurns ≤ schedule.count place) :
    ∃ outcomes, ((start jobs first).run schedule).outcomes? = some outcomes := by
  refine exists_outcomes_of_done fun r hr => ?_
  obtain ⟨place, hplace⟩ := List.mem_iff_getElem?.1 hr
  obtain ⟨r₀, hr₀, hleft⟩ := turnsLeft_run (start jobs first) schedule hplace
  rw [start, List.getElem?_map] at hr₀
  obtain ⟨job, hjob, rfl⟩ := Option.map_eq_some_iff.1 hr₀
  have hturns := h place (List.getElem?_eq_some_iff.1 hjob).1
  have hnone : r.progress.turnsLeft = 0 := by
    have hleft : r.progress.turnsLeft ≤ Request.mostTurns - schedule.count place := hleft
    omega
  obtain ⟨job, progress⟩ := r
  cases progress with
  | done outcome => exact ⟨outcome, rfl⟩
  | _ => cases hnone

/-! ### One request after the other -/

theorem advance_append (before after : List Request) (r : Request) (c : Cache) :
    advance ⟨before ++ r :: after, c⟩ before.length =
      ⟨before ++ (r.step c).1 :: after, (r.step c).2⟩ := by
  simp [advance]

/-- A request that takes all its turns at once does what a look-up without others does. -/
theorem run_replicate_mostTurns (before after : List Request) (job : Job) (c : Cache) :
    run ⟨before ++ ⟨job, .waiting⟩ :: after, c⟩ (List.replicate Request.mostTurns before.length) =
      ⟨before ++ ⟨job, .done (job.outcome c)⟩ :: after,
        (c.getOrCompile job.key job.compilation).2⟩ := by
  simp only [run, Request.mostTurns, List.replicate, List.foldl_cons, List.foldl_nil,
    advance_append]
  cases hget : c.get? job.key with
  | some compiled => simp [Request.step, Job.outcome, Cache.getOrCompile, hget]
  | none =>
    cases hcompilation : job.compilation with
    | ok compiled =>
      simp [Request.step, Job.outcome, Cache.getOrCompile, hget, hcompilation]
    | error error => simp [Request.step, Job.outcome, Cache.getOrCompile, hget, hcompilation]

/-- The schedule by which the requests from a place on take all their turns one after the other. -/
def oneByOne : Nat → Nat → List Nat
  | _, 0 => []
  | place, n + 1 => List.replicate Request.mostTurns place ++ oneByOne (place + 1) n

end Batch

/-! ### Sessions -/

namespace Session

variable {s : Session} {items : List (String × Definition)}

theorem append_append (s : Session) (rules later : List Rule) :
    (s.append rules).append later = s.append (rules ++ later) := by
  simp [append]

/-- Compiling does not look at the rules that were collected. -/
theorem compileAllCached_append (s : Session) (rules : List Rule) :
    ∀ items : List (String × Definition), (s.append rules).compileAllCached items =
      ((s.compileAllCached items).1, (s.compileAllCached items).2.append rules)
  | [] => rfl
  | (name, d) :: items => by
    have hrest := compileAllCached_append (s.compileCached name d).2 rules items
    have hfirst : (s.append rules).compileCached name d =
        ((s.compileCached name d).1, (s.compileCached name d).2.append rules) := rfl
    simp only [compileAllCached, hfirst, hrest]

/-- Compiling a batch is compiling its definitions one after the other. -/
theorem run_compile_eq (s : Session) (items : List (String × Definition)) :
    s.run (items.map fun item => .compile item.1 item.2) =
      ((s.compileAll items).1.map .compiled, (s.compileAll items).2) := by
  induction items generalizing s with
  | nil => simp [run, compileAll, compileAllCached, append]
  | cons item items ih =>
    simp only [List.map_cons, run, step, compile, Prod.map, id, ih, compileAll, compileAllCached,
      compileAllCached_append, append_append, List.flatMap_cons]

/-- Requests that are served one after the other have the outcomes of definitions that are compiled
one after the other, and leave the same cache. -/
theorem exists_run_oneByOne (s : Session) (items : List (String × Definition))
    (before : List Request) :
    ∃ (served : List Request) (outcomes : List (Except NamespaceError Compiled)) (c : Cache),
      Batch.run ⟨before ++ (Batch.start (s.jobs items) s.cache).requests, s.cache⟩
          (Batch.oneByOne before.length items.length) = ⟨before ++ served, c⟩ ∧
        served.map Request.progress = outcomes.map .done ∧
        s.compileAllCached items = (outcomes.map (·.mapError .compile), { s with cache := c }) := by
  induction items generalizing s before with
  | nil => exact ⟨[], [], s.cache, rfl, rfl, rfl⟩
  | cons item items ih =>
    obtain ⟨name, d⟩ := item
    let job : Job := ⟨.of s.options name d, compileNamespace s.options name d⟩
    let s' : Session := (s.compileCached name d).2
    obtain ⟨served, outcomes, c, hrun, hserved, hrest⟩ :=
      ih s' (before ++ [⟨job, .done (job.outcome s.cache)⟩])
    rw [List.append_assoc, List.append_assoc, List.length_append] at hrun
    -- The first request takes all of its turns before the next one takes any.
    have hfirst := Batch.run_replicate_mostTurns before
      (Batch.start (s.jobs items) s.cache).requests job s.cache
    have hcached : s.compileCached name d = ((job.outcome s.cache).mapError .compile, s') := rfl
    refine ⟨⟨job, .done (job.outcome s.cache)⟩ :: served, job.outcome s.cache :: outcomes, c, ?_,
      congrArg (List.cons _) hserved, ?_⟩
    · exact (Batch.run_append _ _ _).trans ((congrArg (Batch.run · _) hfirst).trans hrun)
    · simp only [compileAllCached, hcached, hrest]
      rfl

/-- The definitions of a batch with one key compile to the same. -/
theorem consistent_jobs (s : Session) (h : DigestTellsApart (items.map Prod.snd)) :
    Consistent (s.jobs items) := by
  intro j hj k hk hkey
  obtain ⟨item, hitem, rfl⟩ := List.mem_map.1 hj
  obtain ⟨other, hother, rfl⟩ := List.mem_map.1 hk
  exact compileNamespace_eq_of_key_eq h (List.mem_map_of_mem hitem) (List.mem_map_of_mem hother)
    hkey

/-- A batch may be compiled one by one. -/
theorem compileAllBy_oneByOne (s : Session) (items : List (String × Definition)) :
    s.compileAllBy (Batch.oneByOne 0 items.length) items = some (s.compileAll items) := by
  obtain ⟨served, outcomes, c, hrun, hserved, hcached⟩ := exists_run_oneByOne s items []
  have hrun : (Batch.start (s.jobs items) s.cache).run (Batch.oneByOne 0 items.length) =
      ⟨served, c⟩ := hrun
  have hdone : (Batch.mk served c).outcomes? = some outcomes := Batch.outcomes?_eq_some.2 hserved
  simp only [compileAllBy, compileAll, hrun, hdone, hcached, Option.map_some]

/-- What a session did for a batch by one schedule and by another. -/
theorem compileAllBy_agree (h : DigestTellsApart (items.map Prod.snd))
    {schedule schedule' : List Nat} {outcomes outcomes' : List (Except SessionError Compiled)}
    {t t' : Session}
    (hrun : s.compileAllBy schedule items = some (outcomes, t))
    (hrun' : s.compileAllBy schedule' items = some (outcomes', t')) :
    outcomes = outcomes' ∧ t.options = t'.options ∧ t.rules = t'.rules ∧
      t.cache.SameEntries t'.cache ∧
      t.cache.hits + t.cache.misses = s.cache.hits + s.cache.misses + items.length := by
  have hjobs := s.consistent_jobs h
  have hinv (schedule : List Nat) := (Batch.inv_start (s.jobs items) s.cache).run hjobs schedule
  obtain ⟨plain, hdone, heq⟩ := Option.map_eq_some_iff.1 hrun
  obtain ⟨plain', hdone', heq'⟩ := Option.map_eq_some_iff.1 hrun'
  have hplain : plain = plain' :=
    ((hinv schedule).outcomes_eq hdone).trans ((hinv schedule').outcomes_eq hdone').symm
  cases heq
  cases heq'
  refine ⟨by rw [hplain], rfl, by simp only [append, hplain],
    (hinv schedule).sameEntries hdone (hinv schedule') hdone', ?_⟩
  refine ((hinv schedule).counts_done hdone).trans ?_
  rw [jobs, List.length_map]

/-- A batch is compiled at the same time. If no two canonical texts of the batch have one digest,
then in whatever order its requests take their turns, the outcomes are those of compiling the
definitions one after the other, the session has collected the same rules and remembers the same
compilations, and each request was counted once. The batch is done, once each request has had its
turns; and compiling it one by one is one of the schedules. -/
theorem compileAllBy_eq_serial (s : Session) (items : List (String × Definition))
    (h : DigestTellsApart (items.map Prod.snd)) :
    let serial := s.run (items.map fun item => .compile item.1 item.2)
    (∃ schedule, s.compileAllBy schedule items = some (s.compileAll items)) ∧
      (∀ schedule : List Nat,
        (∀ place < items.length, Request.mostTurns ≤ schedule.count place) →
          ∃ result, s.compileAllBy schedule items = some result) ∧
      ∀ schedule outcomes t, s.compileAllBy schedule items = some (outcomes, t) →
        outcomes.map .compiled = serial.1 ∧ t.options = serial.2.options ∧
          t.rules = serial.2.rules ∧ t.cache.SameEntries serial.2.cache ∧
          t.cache.hits + t.cache.misses = s.cache.hits + s.cache.misses + items.length := by
  intro serial
  have hserial : serial = ((s.compileAll items).1.map .compiled, (s.compileAll items).2) :=
    s.run_compile_eq items
  refine ⟨⟨_, s.compileAllBy_oneByOne items⟩, ?_, ?_⟩
  · intro schedule hturns
    have hturns : ∀ place < (s.jobs items).length, Request.mostTurns ≤ schedule.count place := by
      rw [jobs, List.length_map]
      exact hturns
    obtain ⟨outcomes, hdone⟩ := Batch.exists_outcomes (s.jobs items) s.cache hturns
    exact ⟨_, Option.map_eq_some_iff.2 ⟨outcomes, hdone, rfl⟩⟩
  · intro schedule outcomes t hrun
    -- Two schedules that end agree, and compiling one by one is such a schedule.
    have hagree := compileAllBy_agree h hrun (s.compileAllBy_oneByOne items)
    rw [hserial]
    exact ⟨congrArg _ hagree.1, hagree.2⟩

/-- Two requests for one definition both miss it, since neither has remembered it when the other
looks. One by one, the second is a hit. -/
theorem compileAllBy_eq_serial_race :
    let red : Definition := .ofEntries [("color", .text "red")]
    let broken : Definition := .ofEntries [("width", .text "calc(1px")]
    let items := [("a", red), ("a", red), ("b", broken)]
    let serial := (start {}).run (items.map fun item => .compile item.1 item.2)
    DigestTellsApart (items.map Prod.snd) ∧ serial.2.cache.hits = 1 ∧
      ∃ outcomes t,
        (start {}).compileAllBy [0, 1, 0, 1, 0, 1, 0, 1, 2, 2, 2] items = some (outcomes, t) ∧
          t.cache.misses = 3 ∧ outcomes.map .compiled = serial.1 ∧ t.rules = serial.2.rules ∧
          t.cache.SameEntries serial.2.cache := by
  intro red broken items serial
  have h : DigestTellsApart (items.map Prod.snd) := by
    unfold DigestTellsApart
    decide +kernel
  have hmisses : ((start {}).compileAllBy [0, 1, 0, 1, 0, 1, 0, 1, 2, 2, 2] items).map
      (·.2.cache.misses) = some 3 := by
    decide +kernel
  obtain ⟨⟨outcomes, t⟩, hrun, hmisses⟩ := Option.map_eq_some_iff.1 hmisses
  have hserial := (compileAllBy_eq_serial (start {}) items h).2.2 _ _ _ hrun
  exact ⟨h, by decide +kernel, outcomes, t, hrun, hmisses, hserial.1, hserial.2.2.1,
    hserial.2.2.2.1⟩

end Session

end AtomicCss
