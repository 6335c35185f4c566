/-!
# Bytes and their UTF-8 text

What goes over a connection is a list of bytes.  `utf8` are the bytes of a text, `ofUtf8?`
reads them back and refuses what is not UTF-8, and `lossy` reads any bytes, with U+FFFD in
place of each part that is not UTF-8.

The names of the ASCII bytes that the readers of this library look for stand at the end.
-/

namespace DaemonRpc

/-- What a connection carries. -/
abbrev Bytes := List UInt8

namespace Bytes

/-- The UTF-8 bytes of a text. -/
def utf8 (s : String) : Bytes := s.toUTF8.toList

/-- The text whose UTF-8 bytes these are. -/
def ofUtf8? (bytes : Bytes) : Option String := String.fromUTF8? ⟨bytes.toArray⟩

/-! ## Reading bytes that may not be UTF-8 -/

/-- The continuation bytes that may follow a leading byte: how many there are, and the range
of the first of them.  The ranges leave out overlong forms, surrogates and what lies beyond
the last code point. -/
def continuation? (lead : UInt8) : Option (Nat × UInt8 × UInt8) :=
  if lead < 0xc2 then none
  else if lead < 0xe0 then some (1, 0x80, 0xbf)
  else if lead = 0xe0 then some (2, 0xa0, 0xbf)
  else if lead = 0xed then some (2, 0x80, 0x9f)
  else if lead < 0xf0 then some (2, 0x80, 0xbf)
  else if lead = 0xf0 then some (3, 0x90, 0xbf)
  else if lead < 0xf4 then some (3, 0x80, 0xbf)
  else if lead = 0xf4 then some (3, 0x80, 0x8f)
  else none

/-- Of `count` continuation bytes, the first in the given range: those that are there. -/
def continuationBytes (count : Nat) (low high : UInt8) : Bytes → Bytes
  | [] => []
  | b :: rest =>
    match count with
    | 0 => []
    | count + 1 =>
      if low ≤ b && b ≤ high then b :: continuationBytes count 0x80 0xbf rest else []

/-- The code point that a leading byte and its continuation bytes spell. -/
def codePoint (lead : UInt8) (following : Bytes) : Nat :=
  let payload := if lead < 0xe0 then lead.toNat % 32
    else if lead < 0xf0 then lead.toNat % 16 else lead.toNat % 8
  following.foldl (fun n b => n * 64 + b.toNat % 64) payload

/-- The characters of the bytes; each longest beginning of a character that is then broken
off, and each byte that begins none, becomes U+FFFD.  `fuel` bounds the characters. -/
def lossyChars : Nat → Bytes → List Char
  | 0, _ => []
  | _ + 1, [] => []
  | fuel + 1, b :: rest =>
    if b < 0x80 then Char.ofNat b.toNat :: lossyChars fuel rest
    else
      match continuation? b with
      | none => '\ufffd' :: lossyChars fuel rest
      | some (count, low, high) =>
        let following := continuationBytes count low high rest
        let c := if following.length = count then Char.ofNat (codePoint b following) else '\ufffd'
        c :: lossyChars fuel (rest.drop following.length)

/-- The text of any bytes. -/
def lossy (bytes : Bytes) : String := String.ofList (lossyChars bytes.length bytes)

/-- How many bytes stand before the first that begins no character or a broken off one.
`fuel` bounds the characters. -/
def validLength : Nat → Bytes → Nat
  | 0, _ => 0
  | _ + 1, [] => 0
  | fuel + 1, b :: rest =>
    if b < 0x80 then 1 + validLength fuel rest
    else
      match continuation? b with
      | none => 0
      | some (count, low, high) =>
        if (continuationBytes count low high rest).length = count then
          1 + count + validLength fuel (rest.drop count)
        else 0

/-! ## Hexadecimal -/

/-- The value of a hexadecimal digit. -/
def hexValue? (b : UInt8) : Option Nat :=
  if 0x30 ≤ b && b ≤ 0x39 then some (b.toNat - 0x30)
  else if 0x61 ≤ b && b ≤ 0x66 then some (b.toNat - 0x61 + 10)
  else if 0x41 ≤ b && b ≤ 0x46 then some (b.toNat - 0x41 + 10)
  else none

/-- The bytes that pairs of hexadecimal digits spell. -/
def ofHex? : List Char → Option Bytes
  | [] => some []
  | [_] => none
  | a :: b :: rest => do
    let high ← hexValue? a.toNat.toUInt8
    let low ← hexValue? b.toNat.toUInt8
    let following ← ofHex? rest
    return (16 * high + low).toUInt8 :: following

/-- Two lower-case hexadecimal digits for each byte. -/
def hexText (bytes : Bytes) : String :=
  String.ofList (bytes.flatMap fun b =>
    [Nat.digitChar (b.toNat / 16), Nat.digitChar (b.toNat % 16)])

end Bytes

/-! ## Names of ASCII bytes -/

namespace Ascii

def tab : UInt8 := 0x09
def newline : UInt8 := 0x0a
def carriageReturn : UInt8 := 0x0d
def space : UInt8 := 0x20
def quotationMark : UInt8 := 0x22
def plus : UInt8 := 0x2b
def comma : UInt8 := 0x2c
def minus : UInt8 := 0x2d
def point : UInt8 := 0x2e
def slash : UInt8 := 0x2f
def zero : UInt8 := 0x30
def nine : UInt8 := 0x39
def colon : UInt8 := 0x3a
def openBracket : UInt8 := 0x5b
def backslash : UInt8 := 0x5c
def closeBracket : UInt8 := 0x5d
def openBrace : UInt8 := 0x7b
def closeBrace : UInt8 := 0x7d

/-- The byte of an ASCII character. -/
def byte (c : Char) : UInt8 := c.toNat.toUInt8

/-- A byte that separates tokens. -/
def isBlank (b : UInt8) : Bool := b = space || b = newline || b = tab || b = carriageReturn

/-- A decimal digit. -/
def isDigit (b : UInt8) : Bool := zero ≤ b && b ≤ nine

/-- The value of a decimal digit. -/
def digitValue (b : UInt8) : Nat := b.toNat - zero.toNat

end Ascii

end DaemonRpc
