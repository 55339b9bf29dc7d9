/-!
# Digests of texts

A 64-bit digest of the UTF-8 bytes of a text. Four lanes take turns: each eight bytes, read as a
little-endian word, are mixed into the first lane, which then moves to the end of the queue. The
last word is padded with zeros, and the length of the text is mixed in at the end.
-/

namespace AtomicCss.Digest

/-- The four lanes of the digest, the one to be mixed next first. -/
structure Lanes where
  /-- The lane to be mixed next. -/
  a : UInt64
  /-- The lane after `a`. -/
  b : UInt64
  /-- The lane after `b`. -/
  c : UInt64
  /-- The lane that was mixed last. -/
  d : UInt64

/-- The lanes before the first word. -/
def Lanes.start : Lanes :=
  ⟨0x16f11fe89b0d677c, 0xb480a793d8e6c86c, 0x6fe2e5aaf078ebc9, 0x14f994a4c5259381⟩

/-- Spreads every bit of a word over the whole word. -/
def diffuse (x : UInt64) : UInt64 :=
  let x := x * 0x6eed0e9da4d94a4f
  let x := x ^^^ ((x >>> 32) >>> (x >>> 60))
  x * 0x6eed0e9da4d94a4f

/-- Mixes one word into the next lane and moves that lane to the end. -/
def Lanes.absorb (l : Lanes) (word : UInt64) : Lanes :=
  ⟨l.b, l.c, l.d, diffuse (l.a ^^^ word)⟩

/-- Bytes as a word, the first byte least significant; missing bytes are zero. -/
def littleEndian (bytes : List UInt8) : UInt64 :=
  bytes.foldr (fun byte word => (word <<< 8) ||| byte.toUInt64) 0

/-- The bytes as words of eight, the last one padded with zeros. -/
def words : List UInt8 → List UInt64
  | [] => []
  | b₀ :: b₁ :: b₂ :: b₃ :: b₄ :: b₅ :: b₆ :: b₇ :: rest =>
    littleEndian [b₀, b₁, b₂, b₃, b₄, b₅, b₆, b₇] :: words rest
  | short => [littleEndian short]

/-- The digest of a sequence of bytes. -/
def ofBytes (bytes : List UInt8) : UInt64 :=
  let l := (words bytes).foldl Lanes.absorb Lanes.start
  diffuse (l.a ^^^ l.b ^^^ l.c ^^^ l.d ^^^ bytes.length.toUInt64)

/-- The digest of a text. -/
def ofText (s : String) : UInt64 :=
  ofBytes s.toUTF8.toList

/-- A digest folded to half its width. -/
def fold (digest : UInt64) : UInt32 :=
  (digest ^^^ (digest >>> 32)).toUInt32

end AtomicCss.Digest
