import AtomicCss.Text.Alphanumeric
import AtomicCss.Text.Blank
import AtomicCss.Value.Node

/-!
# Reading property values

A value is read token by token; a token is the first of the following that fits.

* a gap of spaces, tabs, line feeds and carriage returns;
* a separator;
* a string in single or double quotes, in which a backslash protects the next character;
* a name, which may be empty, and an opening parenthesis; the body of `url(` is taken as it stands;
* a number with its unit, unless a letter, a digit, a dash, an underscore or a point follows;
* a word, which ends at white space, a separator, a parenthesis or a quote.

`readNodes` reads as far as tokens go and gives the rest. `parseValue` asks that nothing is left.
-/

namespace AtomicCss

/-- A character of a gap. -/
def isGap (c : Char) : Bool :=
  c == ' ' || c == '\t' || c == '\r' || c == '\n'

/-- A character of a name. -/
def isNameChar (c : Char) : Bool :=
  Text.isAlphanumeric c || c == '-' || c == '_'

/-- A quote of either kind. -/
def isQuote (c : Char) : Bool :=
  c == '\'' || c == '"'

/-- One of the separators of a value. -/
def isDividerMark (c : Char) : Bool :=
  c == ',' || c == '/'

/-- A character of a word. -/
def isWordChar (c : Char) : Bool :=
  !(Text.isBlank c || isDividerMark c || c == '(' || c == ')' || isQuote c)

/-- A token, or the beginning of a call. -/
inductive Lexeme where
  /-- A node that is complete. -/
  | leaf (node : Node)
  /-- A name and an opening parenthesis; the arguments follow. -/
  | opening (name : String)
deriving Repr

/-- Reads a name: at least one name character. -/
def readName (cs : List Char) : Option (List Char × List Char) :=
  match cs.takeWhile isNameChar with
  | [] => none
  | name => some (name, cs.dropWhile isNameChar)

/-- Reads the rest of a string up to its closing quote. -/
def readQuoted (quote : Char) : List Char → Option (List Char × List Char)
  | [] => none
  | '\\' :: c :: rest =>
    (readQuoted quote rest).map fun (content, rest) => ('\\' :: c :: content, rest)
  | c :: rest =>
    if c = quote then some ([], rest)
    else (readQuoted quote rest).map fun (content, rest) => (c :: content, rest)

/-- Takes a closing parenthesis if there is one. -/
def readClosing : List Char → Bool × List Char
  | ')' :: rest => (true, rest)
  | cs => (false, cs)

/-- Reads a name and an opening parenthesis, and for `url` also the body. -/
def readOpening (cs : List Char) : Option (Lexeme × List Char) :=
  match cs.dropWhile isNameChar with
  | '(' :: rest =>
    let name := String.ofList (cs.takeWhile isNameChar)
    if Text.sameIgnoringCase name "url" then
      let body := String.ofList (rest.takeWhile (· != ')'))
      let (closed, rest) := readClosing (rest.dropWhile (· != ')'))
      some (.leaf (.call name [.word body] closed), rest)
    else some (.opening name, rest)
  | _ => none

/-- Whether a number that is followed by this text would run on into a word. -/
def continuesWord : List Char → Bool
  | [] => false
  | c :: _ => isNameChar c || c == '.'

/-- Reads a number with its unit that is not the beginning of a word. -/
def readNumberLexeme (cs : List Char) : Option (Lexeme × List Char) :=
  match readDimension cs with
  | none => none
  | some (d, rest) => if continuesWord rest then none else some (.leaf (.number d), rest)

/-- Reads a word. -/
def readWord (cs : List Char) : Option (Lexeme × List Char) :=
  match cs.takeWhile isWordChar with
  | [] => none
  | text => some (.leaf (.word (String.ofList text)), cs.dropWhile isWordChar)

/-- Reads one token. -/
def readLexeme : List Char → Option (Lexeme × List Char)
  | [] => none
  | c :: cs =>
    if isGap c then some (.leaf .space, cs.dropWhile isGap)
    else if isDividerMark c then some (.leaf (.divider c), cs)
    else if isQuote c then
      (readQuoted c cs).map fun (content, rest) =>
        (.leaf (.string c (String.ofList content)), rest)
    else readOpening (c :: cs) <|> readNumberLexeme (c :: cs) <|> readWord (c :: cs)

/-- Reads at most `steps` tokens in a row and the arguments of the calls among them. -/
def readNodesWithin : Nat → List Char → List Node × List Char
  | 0, cs => ([], cs)
  | steps + 1, cs =>
    match readLexeme cs with
    | none => ([], cs)
    | some (.leaf node, rest) =>
      let (nodes, rest) := readNodesWithin steps rest
      (node :: nodes, rest)
    | some (.opening name, rest) =>
      let (args, rest) := readNodesWithin steps rest
      let (closed, rest) := readClosing rest
      let (nodes, rest) := readNodesWithin steps rest
      (.call name args closed :: nodes, rest)

/-- Reads nodes as far as tokens go. Every token takes a character, so the length of the text
bounds the number of steps. -/
def readNodes (cs : List Char) : List Node × List Char :=
  readNodesWithin cs.length cs

/-- Why a text is no property value. -/
inductive ParseFailure where
  /-- There is a closing parenthesis without an opening one. -/
  | unmatchedClosing
  /-- A string has no closing quote. -/
  | unterminatedString
  /-- No token starts with this text. -/
  | unexpected (rest : String)
deriving DecidableEq, Repr

/-- The words for a failure. -/
def ParseFailure.message : ParseFailure → String
  | .unmatchedClosing => "unmatched `)`"
  | .unterminatedString => "unterminated string"
  | .unexpected rest => "unexpected input `" ++ rest ++ "`"

/-- What is wrong with a text that is left after the last token. -/
def ParseFailure.ofRest? : List Char → Option ParseFailure
  | [] => none
  | c :: cs =>
    if c = ')' then some .unmatchedClosing
    else if isQuote c then some .unterminatedString
    else some (.unexpected (String.ofList (c :: cs)))

/-- The nodes of a property value. -/
def parseValue (s : String) : Except ParseFailure (List Node) :=
  match ParseFailure.ofRest? (readNodes s.toList).2 with
  | none => .ok (readNodes s.toList).1
  | some failure => .error failure

/-- The parts of a value between gaps at the top level, calls and strings kept whole. -/
def splitValue (s : String) : Except ParseFailure (List String) :=
  (parseValue (Text.trim s)).map fun nodes =>
    ((Text.cutAt Node.isSpace nodes).filter (! ·.isEmpty)).map Node.render

/-- Whether a value has a slash between its tokens at the top level. -/
def hasTopLevelSlash (s : String) : Bool :=
  match parseValue s with
  | .ok nodes => nodes.any (·.isDivider '/')
  | .error _ => false

end AtomicCss
