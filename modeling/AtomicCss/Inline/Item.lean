import AtomicCss.Inline.Token
import AtomicCss.Text.Basic

/-!
# Inline definitions

An inline definition is a list of items between commas: entries `key: value`, and spreads `..base`,
which take over the entries of another definition. A value is a map of entries in braces, a list in
square brackets that is not empty, the word `null`, or an expression.

An identifier stands for the key with dashes in place of its underscores; a string stands for its
text.

* `Item.ofText?` reads the items of a text.
-/

namespace AtomicCss.Inline

/-- An expression of the surrounding code, as far as definitions need them. -/
inductive Expr where
  /-- A literal or a name. -/
  | atom (text : String)
  /-- An expression with a minus sign. -/
  | negated (operand : Expr)
  /-- An expression in parentheses. -/
  | parens (inner : Expr)
  /-- Two expressions with an operator between them. -/
  | binary (left : Expr) (operator : Char) (right : Expr)
  /-- A field of an expression. -/
  | field (record : Expr) (name : String)
deriving DecidableEq, Repr

/-- The tokens of an expression with spaces between them, but none inside parentheses. -/
def Expr.text : Expr → String
  | .atom text => text
  | .negated operand => "- " ++ operand.text
  | .parens inner => "(" ++ inner.text ++ ")"
  | .binary left operator right => left.text ++ " " ++ operator.toString ++ " " ++ right.text
  | .field record name => record.text ++ " . " ++ name

/-- The value of an entry. -/
inductive Value where
  /-- The word `null`. -/
  | null
  /-- A list of alternatives. -/
  | list (items : List Value)
  /-- Entries under conditions. -/
  | map (entries : List (String × Value))
  /-- An expression. -/
  | expr (expr : Expr)

/-- An item of a definition. -/
inductive Item where
  /-- An entry. -/
  | entry (key : String) (value : Value)
  /-- A definition whose entries are taken over. -/
  | spread (expr : Expr)

/-! ### Expressions -/

/-- Keywords, which are no names of values. -/
def keywords : List String :=
  ["_", "abstract", "as", "async", "await", "become", "box", "break", "const", "continue", "do",
    "dyn", "else", "enum", "extern", "final", "fn", "for", "if", "impl", "in", "let", "loop",
    "macro", "match", "mod", "move", "mut", "override", "priv", "pub", "ref", "return", "static",
    "struct", "trait", "try", "type", "typeof", "unsafe", "unsized", "use", "virtual", "where",
    "while", "yield"]

/-- An operator between two expressions. -/
def isOperator (c : Char) : Bool :=
  "+-*/%".toList.contains c

/-- Reads fields of an expression. -/
def readFields (e : Expr) : List Token → Expr × List Token
  | .mark '.' false :: .ident name :: rest => readFields (.field e name) rest
  | tokens => (e, tokens)

mutual

/-- Reads an expression in at most `steps` steps. -/
def readExpr : Nat → List Token → Option (Expr × List Token)
  | 0, _ => none
  | steps + 1, tokens => do
    let (left, rest) ← readOperand steps tokens
    readOperations steps left rest

/-- Reads operators with their right operands. -/
def readOperations : Nat → Expr → List Token → Option (Expr × List Token)
  | 0, _, _ => none
  | steps + 1, left, tokens =>
    match tokens with
    | .mark c joint :: rest =>
      if isOperator c then do
        let (right, rest) ← readOperand steps rest
        readOperations steps (.binary left c right) rest
      else some (left, .mark c joint :: rest)
    | _ => some (left, tokens)

/-- Reads an operand. -/
def readOperand : Nat → List Token → Option (Expr × List Token)
  | 0, _ => none
  | steps + 1, tokens =>
    match tokens with
    | .mark '-' _ :: rest =>
      (readOperand steps rest).map fun (operand, rest) => (.negated operand, rest)
    | .opening .paren :: rest => do
      let (inner, rest) ← readExpr steps rest
      match rest with
      | .closing .paren :: rest => return readFields (.parens inner) rest
      | _ => none
    | .literal written _ :: rest => some (readFields (.atom written) rest)
    | .ident name :: rest =>
      if keywords.contains name then none else some (readFields (.atom name) rest)
    | _ => none

end

/-! ### Items -/

/-- The key that an identifier stands for. -/
def identifierKey (name : String) : String :=
  let plain := if Text.startsWith name "r#" then String.ofList (name.toList.drop 2) else name
  Text.replaceChar '_' "-" plain

/-- Reads a key and the colon after it. -/
def readKey : List Token → Option (String × List Token)
  | .literal _ (some content) :: .mark ':' _ :: rest => some (content, rest)
  | .ident name :: .mark ':' _ :: rest => some (identifierKey name, rest)
  | _ => none

/-- Whether a value ends before these tokens. -/
def endsValue : List Token → Bool
  | [] => true
  | .closing _ :: _ => true
  | .mark ',' _ :: _ => true
  | _ => false

mutual

/-- Reads a value in at most `steps` steps. -/
def readValue : Nat → List Token → Option (Value × List Token)
  | 0, _ => none
  | steps + 1, tokens =>
    match tokens with
    | .opening .brace :: rest =>
      (readEntries steps rest).map fun (entries, rest) => (.map entries, rest)
    | .opening .square :: rest => do
      let (items, rest) ← readList steps rest
      if items.isEmpty then none else return (.list items, rest)
    | .ident "null" :: rest =>
      if endsValue rest then some (.null, rest)
      else (readExpr steps tokens).map fun (e, rest) => (.expr e, rest)
    | _ => (readExpr steps tokens).map fun (e, rest) => (.expr e, rest)

/-- Reads the entries of a map up to its end. -/
def readEntries : Nat → List Token → Option (List (String × Value) × List Token)
  | 0, _ => none
  | steps + 1, tokens =>
    match tokens with
    | .closing .brace :: rest => some ([], rest)
    | _ => do
      let (key, rest) ← readKey tokens
      let (value, rest) ← readValue steps rest
      match rest with
      | .closing .brace :: rest => return ([(key, value)], rest)
      | .mark ',' _ :: rest =>
        let (entries, rest) ← readEntries steps rest
        return ((key, value) :: entries, rest)
      | _ => none

/-- Reads the items of a list up to its end. -/
def readList : Nat → List Token → Option (List Value × List Token)
  | 0, _ => none
  | steps + 1, tokens =>
    match tokens with
    | .closing .square :: rest => some ([], rest)
    | _ => do
      let (value, rest) ← readValue steps tokens
      match rest with
      | .closing .square :: rest => return ([value], rest)
      | .mark ',' _ :: rest =>
        let (items, rest) ← readList steps rest
        return (value :: items, rest)
      | _ => none

end

/-- Reads one item of a definition. -/
def readItem (steps : Nat) : List Token → Option (Item × List Token)
  | .mark '.' true :: .mark '.' _ :: rest =>
    (readExpr steps rest).map fun (e, rest) => (.spread e, rest)
  | tokens => do
    let (key, rest) ← readKey tokens
    let (value, rest) ← readValue steps rest
    return (.entry key value, rest)

/-- Reads the items of a definition up to the end of the tokens. -/
def readItems : Nat → List Token → Option (List Item)
  | _, [] => some []
  | 0, _ :: _ => none
  | steps + 1, tokens => do
    let (item, rest) ← readItem steps tokens
    match rest with
    | [] => return [item]
    | .mark ',' _ :: rest =>
      let items ← readItems steps rest
      return item :: items
    | _ => none

/-- The items of a definition. Two steps for each token are enough. -/
def Item.ofText? (s : String) : Option (List Item) := do
  let tokens ← lex s
  readItems (2 * tokens.length + 2) tokens

end AtomicCss.Inline
