import AtomicCss.Inline.Item
import AtomicCss.Text.Printable

/-!
# Code for inline definitions

An inline definition stands for code that builds it at run time. The code is a row of tokens
with spaces between them, but none inside parentheses and square brackets.
-/

namespace AtomicCss.Inline

/-- A character by its code point. -/
def codePointEscape (c : Char) : List Char :=
  '\\' :: 'u' :: '\x7b' :: Nat.toDigits 16 c.toNat ++ ['\x7d']

/-- The escape of the null character. It is written so that a digit after it is not taken for a part
of it. -/
def nullEscape : List Char → List Char
  | [] => ['\\', '0']
  | c :: _ => if '0' ≤ c && c ≤ '7' then ['\\', 'x', '0', '0'] else ['\\', '0']

/-- A character of a string literal; `rest` are the characters that follow it. -/
def escapeChar (c : Char) (rest : List Char) : List Char :=
  if c = Char.ofNat 0 then nullEscape rest
  else if c = '\t' then ['\\', 't']
  else if c = '\r' then ['\\', 'r']
  else if c = '\n' then ['\\', 'n']
  else if c = '"' then ['\\', '"']
  else if c = '\\' then ['\\', '\\']
  else if Text.isPrintable c then [c]
  else codePointEscape c

/-- The characters of a string literal between its quotes. -/
def escapeChars : List Char → List Char
  | [] => []
  | c :: rest => escapeChar c rest ++ escapeChars rest

/-- A text as a string literal. -/
def stringLiteral (s : String) : String :=
  String.ofList ('"' :: escapeChars s.toList ++ ['"'])

/-- The path of a name in the library of the generated code. -/
def libraryPath (name : String) : String :=
  ":: stylebake :: " ++ name

/-- Items with commas between them. -/
def commaSeparated (items : List String) : String :=
  String.intercalate " , " items

/-- A list of keys and values. -/
def pairsCode (pairs : List String) : String :=
  ":: std :: vec :: Vec :: < (& str , " ++ libraryPath "StyleValue" ++ ") > :: from ([" ++
    commaSeparated pairs ++ "])"

/-- A key with the code of its value. -/
def pairCode (key value : String) : String :=
  "(" ++ stringLiteral key ++ " , " ++ value ++ ")"

mutual

/-- The code of a value. -/
def Value.code : Value → String
  | .null => libraryPath "StyleValue :: Null"
  | .list items =>
    libraryPath "StyleValue :: Fallbacks (:: std :: vec ! [" ++ commaSeparated (codes items) ++ "])"
  | .map entries =>
    libraryPath "StyleValue :: conditional (" ++ pairsCode (pairCodes entries) ++ ")"
  | .expr e => libraryPath "StyleValue :: from (" ++ e.text ++ ")"

/-- The codes of values in a row. -/
def Value.codes : List Value → List String
  | [] => []
  | value :: rest => value.code :: Value.codes rest

/-- The codes of entries. -/
def Value.pairCodes : List (String × Value) → List String
  | [] => []
  | (key, value) :: rest => pairCode key value.code :: Value.pairCodes rest

end

namespace Item

/-- Whether the item takes over another definition. -/
def isSpread : Item → Bool
  | .spread _ => true
  | .entry _ _ => false

/-- The code of an entry as a pair. -/
def pair? : Item → Option String
  | .entry key value => some (pairCode key value.code)
  | .spread _ => none

/-- The statement that adds an item to a definition. -/
def statement : Item → String
  | .entry key value =>
    "__definition . insert (" ++ stringLiteral key ++ " , " ++ value.code ++ ") ;"
  | .spread e => "__definition . extend (" ++ e.text ++ ") ;"

/-- The code of a definition: a list of entries, or a block of statements if there is a spread. -/
def codeOf (items : List Item) : String :=
  if items.any isSpread then
    "\x7b let mut __definition = " ++ libraryPath "StyleDefinition :: new () ; " ++
      String.join (items.map fun item => item.statement ++ " ") ++ "__definition \x7d"
  else
    libraryPath "StyleDefinition :: from_entries (" ++ pairsCode (items.filterMap pair?) ++ ")"

end Item

end AtomicCss.Inline
