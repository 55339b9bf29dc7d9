/-!
# Writing JSON texts

Compact texts: no blanks between tokens, characters beyond ASCII as they are, and escapes only for
the quote, the backslash and control characters.

* `quote` writes a string, and `writeArray` and `writeObject` put written values together.
-/

namespace AtomicCss.Json

/-- The hexadecimal digit for a value below 16, in lower case. -/
def hexDigit (n : Nat) : Char :=
  Nat.digitChar n

/-- The characters that stand for `c` in a string. -/
def escape (c : Char) : List Char :=
  if c = '"' then ['\\', '"']
  else if c = '\\' then ['\\', '\\']
  else if c = '\x08' then ['\\', 'b']
  else if c = '\t' then ['\\', 't']
  else if c = '\n' then ['\\', 'n']
  else if c = '\x0c' then ['\\', 'f']
  else if c = '\r' then ['\\', 'r']
  else if c.toNat < 0x20 then
    ['\\', 'u', '0', '0', hexDigit (c.toNat / 16), hexDigit (c.toNat % 16)]
  else [c]

/-- The text as a JSON string. -/
def quote (s : String) : String :=
  String.ofList ('"' :: s.toList.flatMap escape ++ ['"'])

/-- An array of values that are written already. -/
def writeArray (items : List String) : String :=
  "[" ++ String.intercalate "," items ++ "]"

/-- A member of an object whose value is written already. -/
def writeMember (key value : String) : String :=
  quote key ++ ":" ++ value

/-- An object of values that are written already. -/
def writeObject (members : List (String × String)) : String :=
  "\x7b" ++ String.intercalate "," (members.map fun m => writeMember m.1 m.2) ++ "\x7d"

end AtomicCss.Json
