import DaemonRpc.Text.Bytes

/-!
# Percent encoding

Inside a URL a byte is written as `%` and two hexadecimal digits when it is not ASCII or
belongs to the set of its component.  The sets grow from the fragment to the user
information.
-/

namespace DaemonRpc.Percent

/-- The ASCII characters that a component does not hold as they are. -/
abbrev Reserved := Char → Bool

/-- Control characters. -/
def control : Reserved := fun c => c.toNat < 0x20 || c.toNat = 0x7f

/-- What a fragment does not hold. -/
def fragment : Reserved := fun c => control c || [' ', '\x22', '<', '>', '\x60'].contains c

/-- What a query does not hold. -/
def query : Reserved := fun c => control c || [' ', '\x22', '#', '<', '>', '\x27'].contains c

/-- What a path does not hold. -/
def path : Reserved := fun c => fragment c || ['#', '?', '\x7b', '\x7d'].contains c

/-- What a user name or a password does not hold. -/
def userInfo : Reserved := fun c =>
  path c || ['/', ':', ';', '=', '@', '[', '\\', ']', '^', '|'].contains c

/-- A byte as `%` and two upper-case hexadecimal digits. -/
def byteChars (b : UInt8) : List Char :=
  ['%', (Nat.digitChar (b.toNat / 16)).toUpper, (Nat.digitChar (b.toNat % 16)).toUpper]

/-- One character of a component. -/
def encodeChar (reserved : Reserved) (c : Char) : List Char :=
  if c.toNat < 0x80 && !reserved c then [c] else (String.utf8EncodeChar c).flatMap byteChars

/-- The text of a component. -/
def encode (reserved : Reserved) (cs : List Char) : List Char :=
  cs.flatMap (encodeChar reserved)

/-- The bytes of a component: each `%` with two hexadecimal digits behind it is one byte,
and all else stands for itself. -/
def decode : Bytes → Bytes
  | [] => []
  | 0x25 :: a :: b :: rest =>
    match Bytes.hexValue? a, Bytes.hexValue? b with
    | some high, some low => (16 * high + low).toUInt8 :: decode rest
    | _, _ => 0x25 :: decode (a :: b :: rest)
  | b :: rest => b :: decode rest

end DaemonRpc.Percent
