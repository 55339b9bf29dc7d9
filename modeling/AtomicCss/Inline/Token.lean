import AtomicCss.Json.Reader
import AtomicCss.Text.Blank
import AtomicCss.Text.Identifier

/-!
# Tokens of inline definitions

A definition can be written in line in the code that uses it. Its text is divided into tokens:
identifiers, literals, punctuation marks and brackets. Blanks and comments separate tokens, and
comments nest.

* `readToken` reads one token, and `lex` reads all tokens of a text.
-/

namespace AtomicCss.Inline

/-- The brackets that enclose tokens. -/
inductive Bracket where
  /-- Parentheses. -/
  | paren
  /-- Square brackets. -/
  | square
  /-- Braces. -/
  | brace
deriving DecidableEq, Repr

/-- A token. -/
inductive Token where
  /-- An identifier or a keyword as written. -/
  | ident (text : String)
  /-- A literal as written; for a string also the text it stands for. -/
  | literal (written : String) (content : Option String)
  /-- A punctuation mark; `joint` says whether another one follows at once. -/
  | mark (c : Char) (joint : Bool)
  /-- An opening bracket. -/
  | opening (bracket : Bracket)
  /-- A closing bracket. -/
  | closing (bracket : Bracket)
deriving DecidableEq, Repr

/-! ### Blanks and comments -/

/-- A character between tokens: white space or a mark of the writing direction. -/
def isSeparator (c : Char) : Bool :=
  Text.isBlank c || c == '\u200e' || c == '\u200f'

/-- Whether a comment that goes on like this, after its two slashes, documents something. Such a
comment is no blank. -/
def isLineDoc : List Char → Bool
  | '!' :: _ => true
  | '/' :: '/' :: _ => false
  | '/' :: _ => true
  | _ => false

/-- Whether a comment that goes on like this, after its slash and star, documents something. -/
def isBlockDoc : List Char → Bool
  | '!' :: _ => true
  | '*' :: '/' :: _ => false
  | '*' :: '*' :: _ => false
  | '*' :: _ => true
  | _ => false

/-- Drops the rest of a comment and of the `depth` comments around it. -/
def dropComment : Nat → List Char → Option (List Char)
  | _, [] => none
  | 0, '*' :: '/' :: rest => some rest
  | depth + 1, '*' :: '/' :: rest => dropComment depth rest
  | depth, '/' :: '*' :: rest => dropComment (depth + 1) rest
  | depth, _ :: rest => dropComment depth rest

/-- Drops a comment. -/
def readComment : List Char → Option (List Char)
  | '/' :: '/' :: rest => if isLineDoc rest then none else some (rest.dropWhile (· != '\n'))
  | '/' :: '*' :: rest => if isBlockDoc rest then none else dropComment 0 rest
  | _ => none

/-- Whether a comment starts here. -/
def startsComment : List Char → Bool
  | '/' :: '/' :: _ => true
  | '/' :: '*' :: _ => true
  | _ => false

/-! ### Identifiers and strings -/

/-- Reads an identifier. -/
def readIdentifier : List Char → Option (List Char × List Char)
  | [] => none
  | c :: cs =>
    if Text.isIdentifierStart c then
      some (c :: cs.takeWhile Text.isIdentifierRest, cs.dropWhile Text.isIdentifierRest)
    else none

/-- Drops the identifier that follows a literal at once. -/
def dropSuffix (cs : List Char) : List Char :=
  match readIdentifier cs with
  | some (_, rest) => rest
  | none => cs

/-- What was read when `rest` is left of `cs`. -/
def written (cs rest : List Char) : String :=
  String.ofList (cs.take (cs.length - rest.length))

/-- Whether there is a character with this code point. -/
def isScalar (n : Nat) : Bool :=
  n < 0xd800 || (0xdfff < n && n < 0x110000)

/-- Reads the digits of an escaped code point up to the closing brace: one to six of them, with
underscores anywhere but in front. -/
def readCodePoint : Nat → Nat → List Char → Option (Char × List Char)
  | digits, n, c :: cs =>
    if c = '\x7d' then
      if 0 < digits && isScalar n then some (Char.ofNat n, cs) else none
    else if c = '_' then
      if 0 < digits then readCodePoint digits n cs else none
    else
      match Json.hexValue? c with
      | some v => if digits < 6 then readCodePoint (digits + 1) (16 * n + v) cs else none
      | none => none
  | _, _, [] => none

/-- Drops the blanks in front of a line that continues a string. A carriage return must be part of a
line break. -/
def dropIndent : List Char → Option (List Char)
  | [] => none
  | '\r' :: '\n' :: rest => dropIndent rest
  | c :: rest =>
    if c = '\r' then none
    else if Json.isSpace c then dropIndent rest
    else some (c :: rest)

/-- Reads an escape after its backslash: the characters it stands for, none of them if it continues
the line. -/
def readEscape : List Char → Option (List Char × List Char)
  | 'n' :: rest => some (['\n'], rest)
  | 'r' :: rest => some (['\r'], rest)
  | 't' :: rest => some (['\t'], rest)
  | '0' :: rest => some ([Char.ofNat 0], rest)
  | '\\' :: rest => some (['\\'], rest)
  | '\'' :: rest => some (['\''], rest)
  | '"' :: rest => some (['"'], rest)
  | 'x' :: a :: b :: rest =>
    match Json.hexValue? a, Json.hexValue? b with
    | some high, some low => if high < 8 then some ([Char.ofNat (16 * high + low)], rest) else none
    | _, _ => none
  | 'u' :: '\x7b' :: rest => (readCodePoint 0 0 rest).map fun (c, rest) => ([c], rest)
  | '\n' :: rest => (dropIndent rest).map fun rest => ([], rest)
  | '\r' :: '\n' :: rest => (dropIndent rest).map fun rest => ([], rest)
  | _ => none

/-- Reads the rest of a string in at most `steps` steps: the text it stands for. A line break of two
characters counts as one. -/
def readString : Nat → List Char → Option (List Char × List Char)
  | 0, _ => none
  | _, [] => none
  | _ + 1, '"' :: rest => some ([], rest)
  | steps + 1, '\\' :: rest => do
    let (cs, rest) ← readEscape rest
    let (content, rest) ← readString steps rest
    return (cs ++ content, rest)
  | steps + 1, '\r' :: rest =>
    match rest with
    | '\n' :: rest => (readString steps rest).map fun (content, rest) => ('\n' :: content, rest)
    | _ => none
  | steps + 1, c :: rest =>
    (readString steps rest).map fun (content, rest) => (c :: content, rest)

/-- Reads the rest of a raw string, which ends with a quote and as many number signs as it started
with. -/
def readRawString (hashes : Nat) : List Char → Option (List Char × List Char)
  | [] => none
  | '"' :: rest =>
    if rest.take hashes = List.replicate hashes '#' then some ([], rest.drop hashes)
    else (readRawString hashes rest).map fun (content, rest) => ('"' :: content, rest)
  | '\r' :: '\n' :: rest =>
    (readRawString hashes rest).map fun (content, rest) => ('\r' :: '\n' :: content, rest)
  | c :: rest =>
    if c = '\r' then none
    else (readRawString hashes rest).map fun (content, rest) => (c :: content, rest)

/-- Keywords that cannot be made identifiers by a raw form. -/
def neverRaw : List String :=
  ["_", "super", "self", "Self", "crate"]

/-- Reads a raw identifier after its `r#`. -/
def readRawIdentifier (cs : List Char) : Option (Token × List Char) :=
  match readIdentifier cs with
  | some (name, rest) =>
    let name := String.ofList name
    if neverRaw.contains name then none else some (.ident ("r#" ++ name), rest)
  | none => none

/-- Reads an identifier as a token. -/
def readIdentToken (cs : List Char) : Option (Token × List Char) :=
  (readIdentifier cs).map fun (name, rest) => (.ident (String.ofList name), rest)

/-- The token of a string that was read from `cs`. -/
def stringToken (cs : List Char) (r : List Char × List Char) : Token × List Char :=
  let rest := dropSuffix r.2
  (.literal (written cs rest) (some (String.ofList r.1)), rest)

/-- How many number signs may stand before and after a raw string. -/
def rawHashLimit : Nat := 255

/-- Reads what starts with the letter `r`: a raw string, a raw identifier or an identifier. -/
def readAfterR (cs : List Char) : Option (Token × List Char) :=
  let hashes := ((cs.drop 1).takeWhile (· == '#')).length
  match (cs.drop 1).dropWhile (· == '#') with
  | '"' :: rest =>
    if hashes ≤ rawHashLimit then (readRawString hashes rest).map (stringToken cs) else none
  | rest =>
    if hashes = 0 then readIdentToken cs
    else if hashes = 1 then readRawIdentifier rest
    else none

/-! ### Numbers -/

/-- A digit or an underscore. -/
def isDigitOrScore (c : Char) : Bool :=
  c.isDigit || c == '_'

/-- Drops the fraction of a number, if there is one: a point that no point and no identifier
follows, and digits. -/
def dropFraction : List Char → List Char
  | '.' :: rest =>
    match rest with
    | [] => []
    | c :: _ =>
      if c = '.' || Text.isIdentifierStart c then '.' :: rest
      else rest.dropWhile isDigitOrScore
  | cs => cs

/-- Drops the digits of an exponent, if there is one among them. -/
def dropExponentDigits (cs : List Char) : Option (List Char) :=
  if (cs.takeWhile isDigitOrScore).any Char.isDigit then some (cs.dropWhile isDigitOrScore)
  else none

/-- Drops the exponent of a number, if there is one. -/
def dropExponent (cs : List Char) : List Char :=
  match cs with
  | c :: rest =>
    if c = 'e' || c = 'E' then
      match rest.dropWhile (· == '_') with
      | s :: digits =>
        if s = '+' || s = '-' then (dropExponentDigits digits).getD cs
        else (dropExponentDigits (s :: digits)).getD cs
      | [] => cs
    else cs
  | [] => []

/-- Drops the digits of a number in another base, if there is one and all of them fit. -/
def dropBased (base : Nat) (cs : List Char) : Option (List Char) :=
  let isPart := fun c =>
    c == '_' || c.isDigit || (match Json.hexValue? c with
      | some v => v < base
      | none => false)
  let digits := (cs.takeWhile isPart).filterMap Json.hexValue?
  if !digits.isEmpty && digits.all (· < base) then some (cs.dropWhile isPart) else none

/-- Drops a number without its suffix. -/
def dropNumber : List Char → Option (List Char)
  | '0' :: 'x' :: rest => dropBased 16 rest
  | '0' :: 'o' :: rest => dropBased 8 rest
  | '0' :: 'b' :: rest => dropBased 2 rest
  | cs => some (dropExponent (dropFraction (cs.dropWhile isDigitOrScore)))

/-- Reads a number. -/
def readNumberToken (cs : List Char) : Option (Token × List Char) :=
  (dropNumber cs).map fun rest =>
    (.literal (written cs (dropSuffix rest)) none, dropSuffix rest)

/-! ### Tokens -/

/-- A punctuation mark. -/
def isMark (c : Char) : Bool :=
  "~!@#$%^&*-=+|;:,<.>/?".toList.contains c

/-- Whether a punctuation mark starts here. -/
def startsMark (cs : List Char) : Bool :=
  match cs with
  | c :: _ => isMark c && !startsComment cs
  | [] => false

/-- The bracket that a character is, and whether it opens. -/
def bracketOf? : Char → Option Token
  | '(' => some (.opening .paren)
  | '[' => some (.opening .square)
  | '\x7b' => some (.opening .brace)
  | ')' => some (.closing .paren)
  | ']' => some (.closing .square)
  | '\x7d' => some (.closing .brace)
  | _ => none

/-- Reads one token. -/
def readToken : List Char → Option (Token × List Char)
  | [] => none
  | c :: cs =>
    if c = '"' then (readString (cs.length + 1) cs).map (stringToken (c :: cs))
    else if c = 'r' then readAfterR (c :: cs)
    else if c.isDigit then readNumberToken (c :: cs)
    else if Text.isIdentifierStart c then readIdentToken (c :: cs)
    else
      match bracketOf? c with
      | some token => some (token, cs)
      | none => if startsMark (c :: cs) then some (.mark c (startsMark cs), cs) else none

/-- Reads tokens up to the end in at most `steps` steps. -/
def lexWithin : Nat → List Char → Option (List Token)
  | _, [] => some []
  | 0, _ :: _ => none
  | steps + 1, c :: cs =>
    if isSeparator c then lexWithin steps cs
    else
      match readComment (c :: cs) with
      | some rest => lexWithin steps rest
      | none => do
        let (token, rest) ← readToken (c :: cs)
        let tokens ← lexWithin steps rest
        return token :: tokens

/-- Drops the byte order mark with which a text may start. -/
def dropByteOrderMark : List Char → List Char
  | '\ufeff' :: rest => rest
  | cs => cs

/-- The tokens of a text. Every token, blank and comment takes a character, so the length of the
text bounds the number of steps. -/
def lex (s : String) : Option (List Token) :=
  lexWithin s.toList.length (dropByteOrderMark s.toList)

end AtomicCss.Inline
