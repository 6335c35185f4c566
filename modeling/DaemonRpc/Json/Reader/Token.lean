import DaemonRpc.Json.Basic
import DaemonRpc.Json.Reader.Fault

/-!
# Words, numbers and strings

The readers of everything that is not an array or an object.  Each takes the bytes that are
left and answers what it read and what is left then.

A number without point or exponent is whole if it fits a 64-bit word.  Every other number is
a double: its first digits, as many as fit an unsigned word, times a power of ten.  `-0` is
the double that has that sign.
-/

namespace DaemonRpc.Json

open Ascii

/-- Skips the blanks at the front. -/
def skipBlanks (s : Bytes) : Bytes := s.dropWhile isBlank

/-- Takes the given bytes from the front. -/
def expectWord : Bytes → Bytes → Except Fault Bytes
  | [], s => .ok s
  | _ :: _, [] => .error (.here [] .unfinishedValue)
  | c :: word, b :: s => if b = c then expectWord word s else .error (.here s .unknownWord)

/-! ## Numbers -/

/-- The largest unsigned word. -/
def maxWord : Nat := 0xffff_ffff_ffff_ffff

/-- Skips the digits at the front and counts them. -/
def skipDigits (s : Bytes) : Nat × Bytes :=
  ((s.takeWhile isDigit).length, s.dropWhile isDigit)

/-- Appends digits to `value` as long as it stays a word; answers the value, how many digits
were taken, and what is left. -/
def takeDigits (value : Nat) : Bytes → Nat × Nat × Bytes
  | [] => (value, 0, [])
  | b :: s =>
    if isDigit b && 10 * value + digitValue b ≤ maxWord then
      let (v, n, rest) := takeDigits (10 * value + digitValue b) s
      (v, n + 1, rest)
    else (value, 0, b :: s)

/-- Whether a digit is at the front. -/
def startsWithDigit : Bytes → Bool
  | b :: _ => isDigit b
  | [] => false

/-- Whether the mark of an exponent is at the front. -/
def startsWithExponent : Bytes → Bool
  | b :: _ => b = byte 'e' || b = byte 'E'
  | [] => false

/-- Divides by `10 ^ 308` as long as the exponent is below what one division can do. -/
def shiftDown : Nat → Float → Int → Float × Int
  | 0, x, e => (x, e)
  | fuel + 1, x, e =>
    if e < -308 && x != 0 then shiftDown fuel (x / Float.ofScientific 1 false 308) (e + 308)
    else (x, e)

/-- The double nearest to `significand`, multiplied or divided once by a power of ten, or by
several where one is not enough; `none` when the product is not finite. -/
def scaled? (significand : Nat) (exponent : Int) : Option Float :=
  let x := significand.toUInt64.toFloat
  if exponent < -308 then
    let (x, e) := shiftDown 4 x exponent
    if x == 0 then some x else some (x / Float.ofScientific 1 false e.natAbs)
  else if exponent < 0 then some (x / Float.ofScientific 1 false exponent.natAbs)
  else if exponent ≤ 308 then
    let y := x * Float.ofScientific 1 false exponent.natAbs
    if y.isFinite then some y else none
  else if x == 0 then some x
  else none

/-- A double under its sign. -/
def signed (positive : Bool) (x : Float) : Number := .double (if positive then x else -x)

/-- Closes a number that ended before `s`. -/
def finishNumber (positive : Bool) (significand : Nat) (exponent : Int) (s : Bytes) :
    Except Fault (Number × Bytes) :=
  match scaled? significand exponent with
  | some x => .ok (signed positive x, s)
  | none => .error (.here s .numberOutOfRange)

/-- The largest exponent that is read digit by digit. -/
def maxExponent : Nat := 0x7fff_ffff

/-- The digits of an exponent.  One beyond `maxExponent` makes a number that is zero or out
of range, without a look at the digits that follow. -/
def exponentDigits (positive upward : Bool) (significand : Nat) (start : Int) (value : Nat) :
    Bytes → Except Fault (Number × Bytes)
  | [] => finish []
  | b :: s =>
    if isDigit b then
      if maxExponent < 10 * value + digitValue b then
        if significand ≠ 0 && upward then .error (.here s .numberOutOfRange)
        else .ok (signed positive 0, (skipDigits s).2)
      else exponentDigits positive upward significand start (10 * value + digitValue b) s
    else finish (b :: s)
where
  /-- All digits of the exponent are read. -/
  finish (s : Bytes) : Except Fault (Number × Bytes) :=
    finishNumber positive significand (if upward then start + value else start - value) s

/-- What follows the mark of an exponent. -/
def exponentPart (positive : Bool) (significand : Nat) (start : Int) (s : Bytes) :
    Except Fault (Number × Bytes) :=
  let (upward, s) := match s with
    | b :: rest => if b = plus then (true, rest) else if b = minus then (false, rest) else (true, s)
    | [] => (true, s)
  match s with
  | [] => .error (.here [] .unfinishedValue)
  | b :: rest =>
    if isDigit b then exponentDigits positive upward significand start (digitValue b) rest
    else .error (.here rest .invalidNumber)

/-- What follows the digits of a number that is a double. -/
def afterDigits (positive : Bool) (significand : Nat) (exponent : Int) (s : Bytes) :
    Except Fault (Number × Bytes) :=
  if startsWithExponent s then exponentPart positive significand exponent s.tail
  else finishNumber positive significand exponent s

/-- What follows the point.  Digits that no longer fit the word are skipped. -/
def fractionPart (positive : Bool) (significand : Nat) (exponent : Int) (s : Bytes) :
    Except Fault (Number × Bytes) :=
  let (value, count, rest) := takeDigits significand s
  if startsWithDigit rest then
    afterDigits positive value (exponent - count) (skipDigits rest).2
  else if count = 0 then
    .error (.ahead rest (if rest.isEmpty then .unfinishedValue else .invalidNumber))
  else afterDigits positive value (exponent - count) rest

/-- A number without point and exponent whose digits fit a word: whole, unless its negative
has no signed word. -/
def wholeNumber (positive : Bool) (significand : Nat) : Number :=
  match Whole.ofInt? (if positive then significand else -significand) with
  | some n =>
    if !positive && significand = 0 then signed false 0 else .whole n
  | none => signed positive significand.toUInt64.toFloat

/-- What follows the digits of the whole part. -/
def afterWhole (positive : Bool) (significand : Nat) (s : Bytes) : Except Fault (Number × Bytes) :=
  match s with
  | b :: rest =>
    if b = point then fractionPart positive significand 0 rest
    else if startsWithExponent s then exponentPart positive significand 0 rest
    else .ok (wholeNumber positive significand, s)
  | [] => .ok (wholeNumber positive significand, [])

/-- A number after its sign. -/
def unsignedNumber (positive : Bool) : Bytes → Except Fault (Number × Bytes)
  | [] => .error (.here [] .unfinishedValue)
  | b :: s =>
    if b = zero then
      if startsWithDigit s then .error (.ahead s .invalidNumber) else afterWhole positive 0 s
    else if isDigit b then
      let (value, _, rest) := takeDigits (digitValue b) s
      if startsWithDigit rest then
        let (beyond, rest) := skipDigits rest
        match rest with
        | b :: rest' =>
          if b = point then fractionPart positive value beyond rest'
          else afterDigits positive value beyond rest
        | [] => afterDigits positive value beyond []
      else afterWhole positive value rest
    else .error (.here s .invalidNumber)

/-- A number. -/
def numberToken (s : Bytes) : Except Fault (Number × Bytes) :=
  match s with
  | b :: rest => if b = minus then unsignedNumber false rest else unsignedNumber true s
  | [] => unsignedNumber true []

/-! ## Strings -/

/-- The four digits of an escaped UTF-16 unit. -/
def hexUnit : Bytes → Except Fault (Nat × Bytes)
  | a :: b :: c :: d :: s =>
    match Bytes.hexValue? a, Bytes.hexValue? b, Bytes.hexValue? c, Bytes.hexValue? d with
    | some a, some b, some c, some d => .ok (((a * 16 + b) * 16 + c) * 16 + d, s)
    | _, _, _, _ => .error (.here s .invalidEscape)
  | _ => .error (.here [] .unfinishedString)

/-- The second half of a pair of units, after its leading one. -/
def trailingUnit (leading : Nat) (s : Bytes) : Except Fault (Nat × Bytes) :=
  match s with
  | [] => .error (.here [] .unfinishedString)
  | b :: s =>
    if b ≠ backslash then .error (.here s .brokenSurrogatePair)
    else
      match s with
      | [] => .error (.here [] .unfinishedString)
      | b :: s =>
        if b ≠ byte 'u' then .error (.here s .brokenSurrogatePair)
        else do
          let (trailing, s) ← hexUnit s
          if trailing < 0xdc00 || 0xdfff < trailing then .error (.here s .loneSurrogate)
          else .ok (0x10000 + (leading - 0xd800) * 0x400 + (trailing - 0xdc00), s)

/-- The code point of an escape in hexadecimal, after its `\u`. -/
def hexEscape (s : Bytes) : Except Fault (Nat × Bytes) := do
  let (unit, s) ← hexUnit s
  if 0xdc00 ≤ unit && unit ≤ 0xdfff then .error (.here s .loneSurrogate)
  else if unit < 0xd800 || 0xdbff < unit then .ok (unit, s)
  else trailingUnit unit s

/-- The bytes that an escape stands for, after its backslash. -/
def escape : Bytes → Except Fault (Bytes × Bytes)
  | [] => .error (.here [] .unfinishedString)
  | b :: s =>
    if b = quotationMark || b = backslash || b = slash then .ok ([b], s)
    else if b = byte 'b' then .ok ([0x08], s)
    else if b = byte 'f' then .ok ([0x0c], s)
    else if b = byte 'n' then .ok ([newline], s)
    else if b = byte 'r' then .ok ([carriageReturn], s)
    else if b = byte 't' then .ok ([tab], s)
    else if b = byte 'u' then do
      let (code, s) ← hexEscape s
      .ok (String.utf8EncodeChar (Char.ofNat code), s)
    else .error (.here s .invalidEscape)

/-- The bytes of a string after its opening quotation mark, in reverse, before `done`.
`fuel` bounds the characters and escapes. -/
def stringBody : Nat → Bytes → Bytes → Except Fault (Bytes × Bytes)
  | 0, _, s => .error (.here s .unfinishedString)
  | fuel + 1, done, s =>
    match s with
    | [] => .error (.here [] .unfinishedString)
    | b :: rest =>
      if b = quotationMark then .ok (done, rest)
      else if b = backslash then do
        let (bytes, rest) ← escape rest
        stringBody fuel (bytes.reverse ++ done) rest
      else if b < 0x20 then .error (.here rest .controlCharacter)
      else stringBody fuel (b :: done) rest

/-- A string, after its opening quotation mark.  One that is not UTF-8 is refused when it is
complete.  The place counts back from its end over the bytes of its content, from the first on
that is not part of a character; there an escape counts as the bytes that it stands for. -/
def stringToken (s : Bytes) : Except Fault (String × Bytes) := do
  let (reversed, rest) ← stringBody (s.length + 1) [] s
  let content := reversed.reverse
  match Bytes.ofUtf8? content with
  | some text => .ok (text, rest)
  | none =>
    let spoiled := content.drop (Bytes.validLength content.length content)
    .error (.back spoiled.length rest .invalidUtf8)

end DaemonRpc.Json
