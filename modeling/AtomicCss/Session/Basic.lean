import AtomicCss.Construct.Keyframes
import AtomicCss.Construct.PositionTry
import AtomicCss.Construct.Variables
import AtomicCss.Construct.ViewTransition
import AtomicCss.Session.Cache
import AtomicCss.Session.Manifest

/-!
# Build sessions

A session holds the options of a build, the rules that were compiled so far and the compilations
that are remembered. Rules are collected on every request, whether or not the compilation was
remembered, so the collected rules may be dropped between two builds.

* `Session.step` carries out one `Command` and gives its `Answer`; `Session.run` carries out
  several.
* `Session.sheet`, `Session.stylesheet` and their like look at a session without changing it.
-/

namespace AtomicCss

/-- Why a command failed. -/
inductive SessionError where
  /-- A compilation failed. -/
  | compile (error : NamespaceError)
  /-- A text is no JSON text of the right form. -/
  | json
deriving DecidableEq, Repr

/-- The words for a failure. -/
def SessionError.message : SessionError → String
  | .compile error => "Compile error: " ++ error.message
  | .json => "JSON error"

/-- The state of a build. -/
structure Session where
  /-- The options of the build. -/
  options : Options
  /-- The rules in the order in which they were collected. -/
  rules : List Rule
  /-- The compilations that are remembered. -/
  cache : Cache
deriving DecidableEq, Repr

/-- Something a session is asked to do. -/
inductive Command where
  /-- Compile a definition. -/
  | compile (name : String) (d : Definition)
  /-- Compile a definition from a JSON text. -/
  | compileJson (name source : String)
  /-- Compile several definitions. -/
  | compileAll (items : List (String × Definition))
  /-- Define the variables of a group. -/
  | defineVars (group : String) (d : Definition)
  /-- Create a theme for a group. -/
  | createTheme (group : String) (d : Definition)
  /-- Compile an animation. -/
  | keyframes (d : Definition)
  /-- Compile an alternative for an anchored position. -/
  | positionTry (d : Definition)
  /-- Compile a class of view transitions. -/
  | viewTransitionClass (d : Definition)
  /-- Collect rules. -/
  | append (rules : List Rule)
  /-- Collect the rules of a manifest. -/
  | restore (source : String)
  /-- Drop the collected rules. -/
  | clear
  /-- Drop the collected rules and give them. -/
  | take
  /-- Forget all compilations. -/
  | clearCache

/-- What a session answers. -/
inductive Answer where
  /-- The outcome of a compilation. -/
  | compiled (outcome : Except SessionError Compiled)
  /-- The outcomes of several compilations. -/
  | batch (outcomes : List (Except SessionError Compiled))
  /-- The name of a construct. -/
  | named (outcome : Except SessionError String)
  /-- How many rules were restored, with warnings. -/
  | restored (outcome : Except SessionError (Nat × List String))
  /-- Rules. -/
  | rules (rules : List Rule)
  /-- Nothing but that the command was carried out. -/
  | done

namespace Session

/-- The session of a new build. -/
def start (options : Options) : Session :=
  ⟨options, [], .empty⟩

/-- Collects rules. -/
def append (s : Session) (rules : List Rule) : Session :=
  { s with rules := s.rules ++ rules }

/-- The rules of a compilation that succeeded. -/
def rulesOf : Except SessionError Compiled → List Rule
  | .ok compiled => compiled.rules
  | .error _ => []

/-- Compiles a definition, or takes what is remembered. -/
def compileCached (s : Session) (name : String) (d : Definition) :
    Except SessionError Compiled × Session :=
  let (outcome, cache) :=
    s.cache.getOrCompile (.of s.options name d) (compileNamespace s.options name d)
  (outcome.mapError .compile, { s with cache := cache })

/-- Compiles a definition and collects its rules. -/
def compile (s : Session) (name : String) (d : Definition) :
    Except SessionError Compiled × Session :=
  let (outcome, s) := s.compileCached name d
  (outcome, s.append (rulesOf outcome))

/-- The definition in a JSON text. -/
def readDefinition (name source : String) : Except SessionError Definition :=
  match Json.Document.ofText? source >>= Json.ofDocument? Json.depthLimit with
  | none => .error .json
  | some j => (Definition.ofJson j).mapError fun error => .compile ⟨name, error⟩

/-- Compiles a definition from a JSON text and collects its rules. -/
def compileJson (s : Session) (name source : String) : Except SessionError Compiled × Session :=
  match readDefinition name source with
  | .error error => (.error error, s)
  | .ok d => s.compile name d

/-- Compiles definitions one after the other, or takes what is remembered. -/
def compileAllCached (s : Session) :
    List (String × Definition) → List (Except SessionError Compiled) × Session
  | [] => ([], s)
  | (name, d) :: items =>
    let (outcome, s) := s.compileCached name d
    let (outcomes, s) := s.compileAllCached items
    (outcome :: outcomes, s)

/-- Compiles definitions and then collects their rules in the same order. -/
def compileAll (s : Session) (items : List (String × Definition)) :
    List (Except SessionError Compiled) × Session :=
  let (outcomes, s) := s.compileAllCached items
  (outcomes, s.append (outcomes.flatMap rulesOf))

/-- Collects the rules of a construct that is compiled afresh. -/
def record (s : Session) (outcome : Except NamespaceError Compiled) :
    Except SessionError Compiled × Session :=
  let outcome := outcome.mapError .compile
  (outcome, s.append (rulesOf outcome))

/-- Collects the rule of a named construct and gives its name. -/
def recordNamed (s : Session) (outcome : Except NamespaceError Named) :
    Except SessionError String × Session :=
  match outcome with
  | .ok named => (.ok named.name, s.append [named.rule])
  | .error error => (.error (.compile error), s)

/-- Collects the usable rules of a manifest. -/
def restore (s : Session) (source : String) : Except SessionError (Nat × List String) × Session :=
  match Manifest.ofText? source with
  | none => (.error .json, s)
  | some m => (.ok (m.usableRules.length, m.warnings), s.append m.usableRules)

/-- Drops the collected rules. -/
def clear (s : Session) : Session :=
  { s with rules := [] }

/-- Forgets all compilations. -/
def clearCache (s : Session) : Session :=
  { s with cache := s.cache.clear }

/-- Carries out a command. -/
def step (s : Session) : Command → Answer × Session
  | .compile name d => (s.compile name d).map .compiled id
  | .compileJson name source => (s.compileJson name source).map .compiled id
  | .compileAll items => (s.compileAll items).map .batch id
  | .defineVars group d => (s.record (AtomicCss.defineVars s.options group d)).map .compiled id
  | .createTheme group d => (s.record (AtomicCss.createTheme s.options group d)).map .compiled id
  | .keyframes d => (s.recordNamed (AtomicCss.keyframes s.options d)).map .named id
  | .positionTry d => (s.recordNamed (AtomicCss.positionTry s.options d)).map .named id
  | .viewTransitionClass d =>
    (s.recordNamed (AtomicCss.viewTransitionClass s.options d)).map .named id
  | .append rules => (.done, s.append rules)
  | .restore source => (s.restore source).map .restored id
  | .clear => (.done, s.clear)
  | .take => (.rules s.rules, s.clear)
  | .clearCache => (.done, s.clearCache)

/-- Carries out commands one after the other. -/
def run (s : Session) : List Command → List Answer × Session
  | [] => ([], s)
  | command :: commands =>
    let (answer, s) := s.step command
    let (answers, s) := s.run commands
    (answer :: answers, s)

/-! ### Looking at a session -/

/-- What is remembered for a definition; the request is not counted. -/
def cached? (s : Session) (name : String) (d : Definition) : Option Compiled :=
  s.cache.get? (.of s.options name d)

/-- The collected rules as a JSON text. -/
def manifest (s : Session) : String :=
  (Manifest.ofRules s.rules).text

/-- The sheet of the collected rules. -/
def sheet (s : Session) : Sheet :=
  .ofRules s.rules

/-- The stylesheet of the collected rules. -/
def stylesheet (s : Session) : String :=
  s.sheet.text s.options.cssLayers

/-- The stylesheet of the collected rules for the given classes. -/
def stylesheetFor (s : Session) (classNames : List String) : String :=
  (s.sheet.subset classNames).text s.options.cssLayers

end Session

end AtomicCss
