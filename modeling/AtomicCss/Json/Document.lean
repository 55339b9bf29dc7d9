import AtomicCss.Json.Numeral

/-!
# JSON documents

A `Document` is a JSON text after its grammar has been checked and before its meaning has been:
numbers are still numerals, strings may hold escapes of surrogates that stand alone, and an object
keeps repeated keys. What a document means depends on who reads it: a value that nobody asks for is
never looked at.

* `Document.text?` is the text of a string whose surrogates come in pairs.
* `Document.members?` are the members of an object with the texts of their keys.
-/

namespace AtomicCss.Json

/-- A part of a string literal. -/
inductive Piece where
  /-- A character, as it stands or by a short escape. -/
  | char (c : Char)
  /-- A UTF-16 unit by its four hexadecimal digits. -/
  | unit (u : Nat)
deriving DecidableEq, Repr

/-- A JSON text that follows the grammar. -/
inductive Document where
  /-- The word `null`. -/
  | null
  /-- One of the words `true` and `false`. -/
  | bool (b : Bool)
  /-- A number. -/
  | number (n : Numeral)
  /-- A string. -/
  | string (pieces : List Piece)
  /-- An array. -/
  | array (items : List Document)
  /-- An object, its members in order. -/
  | object (members : List (List Piece × Document))

/-! ### Strings -/

/-- Whether the unit opens a surrogate pair. -/
def isLeading (u : Nat) : Bool :=
  0xd800 ≤ u && u < 0xdc00

/-- Whether the unit closes a surrogate pair. -/
def isTrailing (u : Nat) : Bool :=
  0xdc00 ≤ u && u < 0xe000

/-- The character of a surrogate pair. -/
def joinPair (leading trailing : Nat) : Char :=
  Char.ofNat (0x10000 + (leading - 0xd800) * 0x400 + (trailing - 0xdc00))

/-- The characters of a string literal, unless a surrogate stands alone. -/
def decode : List Piece → Option (List Char)
  | [] => some []
  | .char c :: rest => (decode rest).map (c :: ·)
  | .unit u :: .unit v :: rest =>
    if isLeading u then
      if isTrailing v then (decode rest).map (joinPair u v :: ·) else none
    else if isTrailing u then none
    else (decode (.unit v :: rest)).map (Char.ofNat u :: ·)
  | .unit u :: rest =>
    if isLeading u || isTrailing u then none else (decode rest).map (Char.ofNat u :: ·)

/-- The text of a string literal, unless a surrogate stands alone. -/
def textOf? (pieces : List Piece) : Option String :=
  (decode pieces).map String.ofList

/-! ### Looking at a document -/

namespace Document

/-- The text, if the document is a string without lone surrogates. -/
def text? : Document → Option String
  | .string pieces => textOf? pieces
  | _ => none

/-- The truth value, if the document is one. -/
def bool? : Document → Option Bool
  | .bool b => some b
  | _ => none

/-- The natural number, if the document is written as one. -/
def natural? : Document → Option Nat
  | .number n => n.natural?
  | _ => none

/-- The text, or none for null. -/
def textOrNull? : Document → Option (Option String)
  | .null => some none
  | d => d.text?.map some

/-- The natural number below `2 ^ 32`, if the document is written as one. -/
def word32? (d : Document) : Option UInt32 :=
  match d.natural? with
  | some n => if n < UInt32.size then some n.toUInt32 else none
  | none => none

/-- The items, if the document is an array. -/
def items? : Document → Option (List Document)
  | .array items => some items
  | _ => none

/-- The members with the texts of their keys, if the document is an object and no key holds a lone
surrogate. -/
def members? : Document → Option (List (String × Document))
  | .object members => members.mapM fun m => (textOf? m.1).map fun key => (key, m.2)
  | _ => none

end Document

/-- The value under a key that may occur once: `some none` if it is missing, `none` if the key is
repeated or the value is not of the right form. -/
def member? {α : Type} (read : Document → Option α) (key : String)
    (members : List (String × Document)) : Option (Option α) :=
  match members.filter (·.1 == key) with
  | [] => some none
  | [m] => (read m.2).map some
  | _ => none

/-- The value under a key that must occur once. -/
def required? {α : Type} (read : Document → Option α) (key : String)
    (members : List (String × Document)) : Option α :=
  (member? read key members).join

end AtomicCss.Json
