import AtomicCss.Digest.Basic

/-!
# Short names in base 36

The digest of a text, folded to 32 bits and written in base 36 with the digits `0`–`9` and
`a`–`z`, is short enough to be part of a class name.
-/

namespace AtomicCss

namespace Base36

/-- The digit for a value below 36. -/
def digitChar (n : Nat) : Char :=
  if n < 10 then Char.ofNat ('0'.toNat + n) else Char.ofNat ('a'.toNat + (n - 10))

/-- The digits of a number in base 36, most significant first. -/
def write (n : Nat) : List Char :=
  if n < 36 then [digitChar n] else write (n / 36) ++ [digitChar (n % 36)]
termination_by n

end Base36

/-- The digest of a text as a short name. -/
def shortName (s : String) : String :=
  String.ofList (Base36.write (Digest.fold (Digest.ofText s)).toNat)

end AtomicCss
