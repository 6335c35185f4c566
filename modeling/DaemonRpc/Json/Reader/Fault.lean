import DaemonRpc.Text.Bytes

/-!
# Where and why a text is not JSON

A reader's only state is what is left of the bytes.  A `Fault` names the cause and how many
bytes were left when it was seen; `Fault.place` turns that into a line and a column of the
whole text.  Some causes are seen before the byte that shows them is taken, others after;
`here` and `ahead` are the two.  One that is seen only at the end of what it spoils is placed
by counting back from there, which is `back`.
-/

namespace DaemonRpc.Json

/-- Why a text is not JSON. -/
inductive Cause where
  | unfinishedArray
  | unfinishedObject
  | unfinishedString
  | unfinishedValue
  | missingColon
  | missingItemSeparator
  | missingMemberSeparator
  | unknownWord
  | missingValue
  | invalidEscape
  | invalidNumber
  | numberOutOfRange
  | invalidUtf8
  | controlCharacter
  | nameNotString
  | loneSurrogate
  | brokenSurrogatePair
  | trailingComma
  | trailingText
  | tooDeep
deriving DecidableEq

/-- The cause in words. -/
def Cause.message : Cause → String
  | .unfinishedArray => "EOF while parsing a list"
  | .unfinishedObject => "EOF while parsing an object"
  | .unfinishedString => "EOF while parsing a string"
  | .unfinishedValue => "EOF while parsing a value"
  | .missingColon => "expected `:`"
  | .missingItemSeparator => "expected `,` or `]`"
  | .missingMemberSeparator => "expected `,` or `\x7d`"
  | .unknownWord => "expected ident"
  | .missingValue => "expected value"
  | .invalidEscape => "invalid escape"
  | .invalidNumber => "invalid number"
  | .numberOutOfRange => "number out of range"
  | .invalidUtf8 => "invalid unicode code point"
  | .controlCharacter => "control character (\\u0000-\\u001F) found while parsing a string"
  | .nameNotString => "key must be a string"
  | .loneSurrogate => "lone leading surrogate in hex escape"
  | .brokenSurrogatePair => "unexpected end of hex escape"
  | .trailingComma => "trailing comma"
  | .trailingText => "trailing characters"
  | .tooDeep => "recursion limit exceeded"

/-- A line, counted from one, and the number of bytes before the place on that line. -/
structure Place where
  line : Nat
  column : Nat
deriving DecidableEq

/-- The place after the first `count` bytes of a text. -/
def Place.after (input : Bytes) (count : Nat) : Place where
  line := 1 + (input.take count).count Ascii.newline
  column := ((input.take count).reverse.takeWhile (· ≠ Ascii.newline)).length

/-- How a place ends a message. -/
def Place.suffix (p : Place) : String := s!" at line {p.line} column {p.column}"

/-- A cause and the number of bytes that were left when it was seen. -/
structure Fault where
  cause : Cause
  unread : Nat
deriving DecidableEq

/-- A fault seen with `rest` left. -/
def Fault.here (rest : Bytes) (cause : Cause) : Fault := ⟨cause, rest.length⟩

/-- A fault shown by the first byte of `rest`, which counts as read if there is one. -/
def Fault.ahead (rest : Bytes) (cause : Cause) : Fault := ⟨cause, rest.length - 1⟩

/-- A fault that is seen with `rest` left and placed `count` bytes before. -/
def Fault.back (count : Nat) (rest : Bytes) (cause : Cause) : Fault :=
  ⟨cause, rest.length + count⟩

/-- Where in the text the fault was seen. -/
def Fault.place (input : Bytes) (f : Fault) : Place :=
  Place.after input (input.length - f.unread)

/-- The fault in words, with its place. -/
def Fault.message (input : Bytes) (f : Fault) : String :=
  f.cause.message ++ (f.place input).suffix

end DaemonRpc.Json
