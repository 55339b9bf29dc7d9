import AtomicCss.Session.Basic

/-!
# Batches that are compiled at the same time

The definitions of a batch may be compiled by several workers, which share the cache. A request for
a compilation takes up to four turns: it looks for its key, counts a hit or a miss, compiles, and
remembers what it compiled, unless another request did so in the meantime. Between two turns of one
request the others may take any number of theirs, so whatever a turn reads of the cache it reads at
that moment.

* `Request.step` is one turn of a request.
* `Batch.run` takes the turns of a batch in the order of a schedule.
* `Session.compileAllBy` compiles a batch by a schedule; the rules are collected in the order of the
  batch, when all requests are done.
-/

namespace AtomicCss

/-- What a request asks for. -/
structure Job where
  /-- The key of the compilation. -/
  key : CacheKey
  /-- What compiling gives. -/
  compilation : Except NamespaceError Compiled

/-- How far a request has come. -/
inductive Progress where
  /-- It has not looked for its key. -/
  | waiting
  /-- It found a compilation and has not counted the hit. -/
  | found (compiled : Compiled)
  /-- It found none and has not counted the miss. -/
  | missed
  /-- It has to compile. -/
  | compiling
  /-- It has to remember what it compiled. -/
  | ready (compiled : Compiled)
  /-- It has its outcome. -/
  | done (outcome : Except NamespaceError Compiled)

/-- A request for a compilation. -/
structure Request where
  /-- What it asks for. -/
  job : Job
  /-- How far it has come. -/
  progress : Progress

namespace Request

/-- The turns that a request takes at most. -/
def mostTurns : Nat := 4

/-- One turn of a request. -/
def step (r : Request) (c : Cache) : Request × Cache :=
  match r.progress with
  | .waiting =>
    match c.get? r.job.key with
    | some compiled => (⟨r.job, .found compiled⟩, c)
    | none => (⟨r.job, .missed⟩, c)
  | .found compiled => (⟨r.job, .done (.ok compiled)⟩, c.countHit)
  | .missed => (⟨r.job, .compiling⟩, c.countMiss)
  | .compiling =>
    match r.job.compilation with
    | .ok compiled => (⟨r.job, .ready compiled⟩, c)
    | .error error => (⟨r.job, .done (.error error)⟩, c)
  | .ready compiled =>
    -- What another request remembered first is the outcome.
    (⟨r.job, .done (.ok ((c.get? r.job.key).getD compiled))⟩, c.insertIfNew r.job.key compiled)
  | .done _ => (r, c)

/-- The outcome of a request that is done. -/
def outcome? (r : Request) : Option (Except NamespaceError Compiled) :=
  match r.progress with
  | .done outcome => some outcome
  | _ => none

end Request

/-- The requests of a batch, with the cache that they share. -/
structure Batch where
  /-- The requests. -/
  requests : List Request
  /-- The cache. -/
  cache : Cache

namespace Batch

/-- The batch of the given jobs. -/
def start (jobs : List Job) (c : Cache) : Batch :=
  ⟨jobs.map fun job => ⟨job, .waiting⟩, c⟩

/-- The request at a place takes a turn. -/
def advance (b : Batch) (place : Nat) : Batch :=
  match b.requests[place]? with
  | none => b
  | some r => ⟨b.requests.set place (r.step b.cache).1, (r.step b.cache).2⟩

/-- The requests take turns in the order of a schedule. -/
def run (b : Batch) (schedule : List Nat) : Batch :=
  schedule.foldl advance b

/-- The outcomes in order, if all requests are done. -/
def outcomes? (b : Batch) : Option (List (Except NamespaceError Compiled)) :=
  b.requests.mapM Request.outcome?

end Batch

namespace Session

/-- What a session has to do for the definitions of a batch. -/
def jobs (s : Session) (items : List (String × Definition)) : List Job :=
  items.map fun item =>
    ⟨.of s.options item.1 item.2, compileNamespace s.options item.1 item.2⟩

/-- Compiles definitions in the order of a schedule, waits until all are done, and then collects
their rules in the order of the batch. -/
def compileAllBy (s : Session) (schedule : List Nat) (items : List (String × Definition)) :
    Option (List (Except SessionError Compiled) × Session) :=
  let b := (Batch.start (s.jobs items) s.cache).run schedule
  b.outcomes?.map fun outcomes =>
    let outcomes := outcomes.map (·.mapError .compile)
    (outcomes, { s with cache := b.cache }.append (outcomes.flatMap rulesOf))

end Session

end AtomicCss
