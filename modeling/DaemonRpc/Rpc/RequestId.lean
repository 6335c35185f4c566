/-!
# Request ids

Every request has an id of its own, by which the reply to it is known.  An id has the form
of a random UUID: 32 hexadecimal digits in five groups, two of which hold a mark that says
how the others were drawn.

`RequestId.ofNat` spells the id of a 128-bit number, in which the marks take the place of
six bits, and `RequestId.isRandomUuid` recognises the form.
-/

namespace DaemonRpc.RequestId

/-- The last `count` hexadecimal digits of a number. -/
def hexDigits : Nat → Nat → List Char
  | 0, _ => []
  | count + 1, n => hexDigits count (n / 16) ++ [Nat.digitChar (n % 16)]

/-- The 32 digits with the two marks put in: the version in front of the third group, the
variant in front of the fourth. -/
def marked (digits : List Char) (n : Nat) : List Char :=
  (digits.set 12 '4').set 16 (Nat.digitChar (8 + (n >>> 60) % 4))

/-- Digits in groups of the given sizes, with a hyphen between two groups. -/
def grouped : List Nat → List Char → List Char
  | [], cs => cs
  | [_], cs => cs
  | size :: sizes, cs => cs.take size ++ '-' :: grouped sizes (cs.drop size)

/-- The sizes of the groups. -/
def groupSizes : List Nat := [8, 4, 4, 4, 12]

/-- The id of a 128-bit number. -/
def ofNat (n : Nat) : String := String.ofList (grouped groupSizes (marked (hexDigits 32 n) n))

/-- A lower-case hexadecimal digit. -/
def isHexDigit (c : Char) : Bool := ('0' ≤ c && c ≤ '9') || ('a' ≤ c && c ≤ 'f')

/-- Whether each character is of its place in an id. -/
def isRandomUuid (s : String) : Bool :=
  let cs := s.toList
  cs.length == 36 &&
    (cs.zipIdx.all fun (c, i) =>
      if i = 8 || i = 13 || i = 18 || i = 23 then c = '-'
      else if i = 14 then c = '4'
      else if i = 19 then ['8', '9', 'a', 'b'].contains c
      else isHexDigit c)

end DaemonRpc.RequestId
