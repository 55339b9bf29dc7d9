import AtomicCss.Compile

/-!
# Variables and themes

A group of variables is a definition whose properties are names of variables. Each variable gets a
custom property with a name made from the group and its key; a theme gives variables of a group
other values within a class.

Variables may depend on at-rules but not on selectors. The declarations under one path of at-rules
are put into one rule, the ones under no condition first (`groupByPath`).
-/

namespace AtomicCss

/-- What became of the variables of a group. -/
structure Variables where
  /-- The declarations by the at-rules around them; the path without at-rules comes first. -/
  groups : List (List Condition × List Declaration)
  /-- The errors in order. -/
  errors : List StyleError
  /-- The number of leaves of the definition. -/
  attempted : Nat
  /-- The keys with the custom properties of which something is kept. -/
  names : List (String × String)

/-- Adds a declaration to the group of its path. -/
def addToGroup (d : Declaration) :
    List (List Condition × List Declaration) → List (List Condition × List Declaration)
  | [] => [(d.conditions, [d])]
  | group :: rest =>
    if group.1 = d.conditions then (group.1, group.2 ++ [d]) :: rest
    else group :: addToGroup d rest

/-- Declarations by path, the paths in the order of their first declarations, after the empty
path. -/
def groupByPath (ds : List Declaration) : List (List Condition × List Declaration) :=
  ds.foldl (fun groups d => addToGroup d groups) [([], [])]

/-- Whether the declaration depends on at-rules at most. -/
def Declaration.underAtRules (d : Declaration) : Bool :=
  d.conditions.all Condition.isAtRule

namespace Variables

/-- What became of one variable of a group. -/
structure One where
  /-- The key of the variable. -/
  key : String
  /-- The custom property. -/
  name : String
  /-- The walk over its value. -/
  expansion : Expansion

namespace One

/-- Compiles one variable of a group. -/
def ofEntry (options : Options) (group : String) (entry : String × StyleValue) : One where
  key := entry.1
  name := variableName options group entry.1
  expansion := expandProperty options (variableName options group entry.1) entry.2

/-- The declarations that are kept. -/
def kept (v : One) : List Declaration :=
  v.expansion.declarations.filter fun d => d.underAtRules && !d.isUnset

/-- The errors of a variable: those of its values, and one for each declaration under a
selector. -/
def errors (v : One) : List StyleError :=
  v.expansion.errors ++
    (v.expansion.declarations.filter (!·.underAtRules)).map fun _ =>
      .unsupported v.key .selectorOnVariable

end One

/-- Compiles the variables of a group. -/
def ofDefinition (options : Options) (group : String) (d : Definition) : Variables :=
  let all := d.entries.map (One.ofEntry options group)
  { groups := groupByPath (all.flatMap One.kept)
    errors := all.flatMap One.errors
    attempted := (all.map (·.expansion.attempted)).foldr (· + ·) 0
    names := (all.filter (!·.kept.isEmpty)).map fun v => (v.key, v.name) }

/-- The error with which a group fails as a whole. -/
def failure? (v : Variables) : Option StyleError :=
  if 0 < v.attempted && v.attempted ≤ v.errors.length then v.errors.head? else none

/-- The rule for the declarations under one path of at-rules. -/
def groupRule (options : Options) (selector : String) (priority : Priority)
    (group : List Condition × List Declaration) : Rule :=
  let body := String.intercalate ";" (group.2.map Declaration.body)
  let text := wrapAtRules (block selector body) group.1
  ⟨prefixedName options text, text, none, priority⟩

/-- The rules of a group, one for each path of at-rules with declarations. -/
def rules (options : Options) (selector : String) (priority : Priority) (v : Variables) :
    List Rule :=
  (v.groups.filter (!·.2.isEmpty)).map (groupRule options selector priority)

/-- The rules of a group with a table, unless the group fails as a whole. -/
def compiled (options : Options) (group selector : String) (priority : Priority)
    (table : LookupTable) (v : Variables) : Except NamespaceError Compiled :=
  match v.failure? with
  | some error => .error ⟨group, error⟩
  | none =>
    .ok ⟨table, v.rules options selector priority, v.errors.map fun error => ⟨group, error⟩⟩

end Variables

/-- Defines the variables of a group on the root of the document. -/
def defineVars (options : Options) (group : String) (d : Definition) :
    Except NamespaceError Compiled :=
  let v := Variables.ofDefinition options group d
  let table := (LookupTable.empty group).insertAll
    (v.names.map fun entry => (.plain entry.1, .customProperty ("var(" ++ entry.2 ++ ")")))
  v.compiled options group ":root" .variableRules table

/-- The name of the class of a theme. -/
def themeName (options : Options) (group : String) (d : Definition) : String :=
  prefixedName options ("theme:" ++ group ++ d.canonicalText)

/-- The selector of a theme: its class, also on the root of the document. -/
def themeSelector (name : String) : String :=
  "." ++ name ++ ",." ++ name ++ ":root"

/-- Creates a theme that gives variables of a group other values. -/
def createTheme (options : Options) (group : String) (d : Definition) :
    Except NamespaceError Compiled :=
  let name := themeName options group d
  let v := Variables.ofDefinition options group d
  let table := (LookupTable.empty group).insert (.plain group) (.className name)
  v.compiled options group (themeSelector name) .theme table

end AtomicCss
