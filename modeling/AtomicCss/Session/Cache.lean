import AtomicCss.Compile

/-!
# Remembered compilations

A compilation is remembered under the name of its namespace, the digest of its definition and the
fingerprint of the options. Failures are not remembered.

* `Cache.getOrCompile` gives what is remembered under a key, or compiles and remembers; it counts
  hits and misses.
-/

namespace AtomicCss

/-- What identifies a compilation. -/
structure CacheKey where
  /-- The name of the namespace. -/
  space : String
  /-- The digest of the definition. -/
  definition : UInt64
  /-- The fingerprint of the options. -/
  options : UInt64
deriving DecidableEq, Repr

/-- The key of a compilation. -/
def CacheKey.of (options : Options) (name : String) (d : Definition) : CacheKey :=
  ⟨name, d.digest, options.fingerprint⟩

/-- The compilations that are remembered, with counts of the requests. -/
structure Cache where
  /-- The remembered compilations. -/
  entries : List (CacheKey × Compiled)
  /-- How many requests were answered from memory. -/
  hits : Nat
  /-- How many were not. -/
  misses : Nat
deriving DecidableEq, Repr

namespace Cache

/-- The cache of a new build. -/
def empty : Cache :=
  ⟨[], 0, 0⟩

/-- What is remembered under a key. -/
def get? (c : Cache) (key : CacheKey) : Option Compiled :=
  (c.entries.find? (·.1 = key)).map Prod.snd

/-- Remembers a compilation, unless there is one under the key. -/
def insertIfNew (c : Cache) (key : CacheKey) (compiled : Compiled) : Cache :=
  match c.get? key with
  | some _ => c
  | none => { c with entries := (key, compiled) :: c.entries }

/-- Counts a hit. -/
def countHit (c : Cache) : Cache :=
  { c with hits := c.hits + 1 }

/-- Counts a miss. -/
def countMiss (c : Cache) : Cache :=
  { c with misses := c.misses + 1 }

/-- The number of remembered compilations. -/
def size (c : Cache) : Nat :=
  c.entries.length

/-- Forgets all compilations; the counts stay. -/
def clear (c : Cache) : Cache :=
  { c with entries := [] }

/-- What is remembered under a key, or else the outcome of the compilation, which is remembered if
it succeeds. -/
def getOrCompile (c : Cache) (key : CacheKey) (compilation : Except NamespaceError Compiled) :
    Except NamespaceError Compiled × Cache :=
  match c.get? key with
  | some compiled => (.ok compiled, c.countHit)
  | none =>
    match compilation with
    | .ok compiled => (.ok compiled, c.countMiss.insertIfNew key compiled)
    | .error error => (.error error, c.countMiss)

end Cache

end AtomicCss
