import AtomicCss.Json.Writer
import AtomicCss.Keyed

/-!
# Lookup tables

The table that takes the place of a definition: for each property and each path of conditions, the
class or the variable to which it was compiled. The entries are sorted by property and then by
conditions, so the table does not depend on the order in which it was filled.

* `LookupTable.insert` sets an entry, and `LookupTable.get?` looks one up.
* `LookupTable.text` is the table as a JSON text: for each property all its names.
-/

namespace AtomicCss

/-- A property with the texts of the conditions on its path. -/
structure LookupKey where
  /-- The property. -/
  property : String
  /-- The conditions, the outermost first. -/
  conditions : List String
deriving DecidableEq, Repr

namespace LookupKey

/-- The key of a property under no condition. -/
def plain (property : String) : LookupKey :=
  ⟨property, []⟩

/-- Keys are ordered by property and then by conditions. -/
instance : LT LookupKey where
  lt a b := a.property < b.property ∨ (a.property = b.property ∧ a.conditions < b.conditions)

instance (a b : LookupKey) : Decidable (a < b) :=
  inferInstanceAs
    (Decidable (a.property < b.property ∨
      (a.property = b.property ∧ a.conditions < b.conditions)))

end LookupKey

/-- What a key was compiled to. -/
inductive StyleRef where
  /-- A class. -/
  | className (name : String)
  /-- A reference to a variable. -/
  | customProperty (reference : String)
  /-- Nothing: the property is unset. -/
  | unset
deriving DecidableEq, Repr

namespace StyleRef

/-- The name to which a key was compiled. -/
def name? : StyleRef → Option String
  | .className name => some name
  | .customProperty reference => some reference
  | .unset => none

/-- Whether a key was compiled to a class. -/
def isClass : StyleRef → Bool
  | .className _ => true
  | _ => false

end StyleRef

/-- Puts a reference under a key in a list that is sorted by keys. -/
def insertSorted (key : LookupKey) (ref : StyleRef) :
    List (LookupKey × StyleRef) → List (LookupKey × StyleRef)
  | [] => [(key, ref)]
  | entry :: rest =>
    if key < entry.1 then (key, ref) :: entry :: rest
    else if key = entry.1 then (key, ref) :: rest
    else entry :: insertSorted key ref rest

/-- The compiled form of a namespace. -/
structure LookupTable where
  /-- The name of the namespace. -/
  name : String
  /-- The entries, sorted by keys. -/
  entries : List (LookupKey × StyleRef)
deriving DecidableEq, Repr

namespace LookupTable

/-- The table without entries. -/
def empty (name : String) : LookupTable :=
  ⟨name, []⟩

/-- Sets the reference under a key. -/
def insert (t : LookupTable) (key : LookupKey) (ref : StyleRef) : LookupTable :=
  { t with entries := insertSorted key ref t.entries }

/-- Sets references one after the other. -/
def insertAll (t : LookupTable) (inserts : List (LookupKey × StyleRef)) : LookupTable :=
  inserts.foldl (fun t entry => t.insert entry.1 entry.2) t

/-- The reference under a key. -/
def get? (t : LookupTable) (key : LookupKey) : Option StyleRef :=
  (t.entries.find? (·.1 = key)).map Prod.snd

/-- The name to which a property was compiled under no condition. -/
def classFor? (t : LookupTable) (property : String) : Option String :=
  (t.get? (.plain property)).bind StyleRef.name?

/-- The number of entries. -/
def size (t : LookupTable) : Nat :=
  t.entries.length

/-- Whether there are no entries. -/
def isEmpty (t : LookupTable) : Bool :=
  t.entries.isEmpty

/-- The names to which a property was compiled, under all conditions. -/
def namesOf (t : LookupTable) (property : String) : List String :=
  (t.entries.filter (·.1.property == property)).filterMap (·.2.name?)

/-- The names of a property with spaces between them, if there are any. -/
def classList? (t : LookupTable) (property : String) : Option String :=
  match t.namesOf property with
  | [] => none
  | names => some (String.intercalate " " names)

/-- Drops the texts that repeat the one before. -/
def dropRepeats : List String → List String
  | [] => []
  | [s] => [s]
  | s :: t :: rest => if s = t then dropRepeats (t :: rest) else s :: dropRepeats (t :: rest)

/-- The properties in order, each of them once. -/
def properties (t : LookupTable) : List String :=
  dropRepeats (t.entries.map (·.1.property))

/-- The key that marks a table with classes. -/
def markerKey : String := "$$css"

/-- The marker, if there is a class. -/
def marker (t : LookupTable) : List (String × String) :=
  if t.entries.any (·.2.isClass) then [(markerKey, "true")] else []

/-- The written value of a property. -/
def valueText (t : LookupTable) (property : String) : String :=
  match t.classList? property with
  | some names => Json.quote names
  | none => "null"

/-- The table as a JSON text: the marker, and all names of each property. -/
def text (t : LookupTable) : String :=
  Json.writeObject
    (Keyed.putAll t.marker (t.properties.map fun property => (property, t.valueText property)))

end LookupTable

end AtomicCss
