import AtomicCss.Value.Dimension

/-!
# Token trees of property values

A property value is a list of nodes: words, numbers, strings, separators, gaps and function calls,
which hold nodes again. Nothing but the width of a gap is lost, and a call whose closing
parenthesis is missing is marked.

* `Node.render` writes nodes as a text again.
* `Node.anyUnclosed` says whether some call, at any depth, is missing its closing parenthesis.
-/

namespace AtomicCss

/-- A token of a property value, or a call with the tokens of its arguments. -/
inductive Node where
  /-- A bare word: a keyword, a colour, the name of a custom property, an operator. -/
  | word (text : String)
  /-- A number with its unit. -/
  | number (dimension : Dimension)
  /-- A string in quotes, escapes as written. -/
  | string (quote : Char) (content : String)
  /-- A call; parentheses on their own are a call without a name. -/
  | call (name : String) (args : List Node) (closed : Bool)
  /-- A gap of any width. -/
  | space
  /-- One of the separators `,` and `/`. -/
  | divider (mark : Char)
deriving Repr

namespace Node

mutual

/-- The characters of a node. -/
def chars : Node → List Char
  | .word text => text.toList
  | .number d => d.number.toList ++ d.unit.toList
  | .string quote content => quote :: content.toList ++ [quote]
  | .call name args closed =>
    name.toList ++ '(' :: charsAll args ++ (if closed then [')'] else [])
  | .space => [' ']
  | .divider mark => [mark]

/-- The characters of nodes in a row. -/
def charsAll : List Node → List Char
  | [] => []
  | n :: ns => chars n ++ charsAll ns

end

/-- The text of nodes in a row. -/
def render (ns : List Node) : String :=
  String.ofList (charsAll ns)

mutual

/-- Whether a call in the node is missing its closing parenthesis. -/
def unclosed : Node → Bool
  | .call _ args closed => !closed || anyUnclosed args
  | _ => false

/-- Whether a call in one of the nodes is missing its closing parenthesis. -/
def anyUnclosed : List Node → Bool
  | [] => false
  | n :: ns => unclosed n || anyUnclosed ns

end

/-- Whether the node is a gap. -/
def isSpace : Node → Bool
  | .space => true
  | _ => false

/-- Whether the node is the given separator. -/
def isDivider (mark : Char) : Node → Bool
  | .divider c => c == mark
  | _ => false

@[simp] theorem charsAll_nil : charsAll [] = [] := rfl

@[simp] theorem charsAll_cons (n : Node) (ns : List Node) :
    charsAll (n :: ns) = chars n ++ charsAll ns := rfl

@[simp] theorem charsAll_append (ns ms : List Node) :
    charsAll (ns ++ ms) = charsAll ns ++ charsAll ms := by
  induction ns with
  | nil => rfl
  | cons n ns ih => simp [ih]

@[simp] theorem toList_render (ns : List Node) : (render ns).toList = charsAll ns :=
  String.toList_ofList

end Node

end AtomicCss
