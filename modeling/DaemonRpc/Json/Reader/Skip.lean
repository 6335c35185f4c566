import DaemonRpc.Json.Reader

/-!
# Skipping a value

A member that nobody asks for is skipped without being read.  Skipping looks only at where
tokens end: it does not count how deep arrays and objects stand inside one another, does not
ask whether a number is in range, and does not pair surrogates.

The arrays and objects that are open are a list of frames, the innermost first.
-/

namespace DaemonRpc.Json

open Ascii

/-- An array or an object that is open. -/
inductive Frame where
  | array
  | object
deriving DecidableEq

/-- The fault of a text that ends inside a frame. -/
def Frame.unfinished : Frame → Cause
  | .array => .unfinishedArray
  | .object => .unfinishedObject

/-- The fault of something other than a separator after an item or a member. -/
def Frame.missingSeparator : Frame → Cause
  | .array => .missingItemSeparator
  | .object => .missingMemberSeparator

/-- The byte that closes a frame. -/
def Frame.closing : Frame → UInt8
  | .array => closeBracket
  | .object => closeBrace

/-! ## Tokens -/

/-- Skips an exponent after its mark. -/
def skipExponent (s : Bytes) : Except Fault Bytes :=
  let s := match s with
    | b :: rest => if b = plus || b = minus then rest else s
    | [] => s
  match s with
  | b :: rest => if isDigit b then .ok (skipDigits rest).2 else .error (.here rest .invalidNumber)
  | [] => .error (.here [] .invalidNumber)

/-- Skips the exponent, if there is one. -/
def skipOptionalExponent (s : Bytes) : Except Fault Bytes :=
  if startsWithExponent s then skipExponent s.tail else .ok s

/-- Skips what follows the whole part of a number. -/
def skipAfterWhole (s : Bytes) : Except Fault Bytes :=
  match s with
  | b :: rest =>
    if b = point then
      if startsWithDigit rest then skipOptionalExponent (skipDigits rest).2
      else .error (.ahead rest .invalidNumber)
    else skipOptionalExponent s
  | [] => .ok []

/-- Skips a number after its sign. -/
def skipUnsigned : Bytes → Except Fault Bytes
  | [] => .error (.here [] .invalidNumber)
  | b :: s =>
    if b = zero then
      if startsWithDigit s then .error (.ahead s .invalidNumber) else skipAfterWhole s
    else if isDigit b then skipAfterWhole (skipDigits s).2
    else .error (.here s .invalidNumber)

/-- Skips an escape after its backslash. -/
def skipEscape : Bytes → Except Fault Bytes
  | [] => .error (.here [] .unfinishedString)
  | b :: s =>
    if b = quotationMark || b = backslash || b = slash || b = byte 'b' || b = byte 'f' ||
        b = byte 'n' || b = byte 'r' || b = byte 't' then .ok s
    else if b = byte 'u' then (hexUnit s).map (·.2)
    else .error (.here s .invalidEscape)

/-- Skips a string after its opening quotation mark. -/
def skipString : Nat → Bytes → Except Fault Bytes
  | 0, s => .error (.here s .unfinishedString)
  | fuel + 1, s =>
    match s with
    | [] => .error (.here [] .unfinishedString)
    | b :: rest =>
      if b = quotationMark then .ok rest
      else if b = backslash then do
        let rest ← skipEscape rest
        skipString fuel rest
      else if b < 0x20 then .error (.here (b :: rest) .controlCharacter)
      else skipString fuel rest

/-- Skips a value that is not an array or an object, from its first byte. -/
def skipScalar (b : UInt8) (s : Bytes) : Except Fault Bytes :=
  if b = byte 'n' then expectWord [byte 'u', byte 'l', byte 'l'] s
  else if b = byte 't' then expectWord [byte 'r', byte 'u', byte 'e'] s
  else if b = byte 'f' then expectWord [byte 'a', byte 'l', byte 's', byte 'e'] s
  else if b = minus then skipUnsigned s
  else if isDigit b then skipUnsigned (b :: s)
  else if b = quotationMark then skipString (s.length + 1) s
  else .error (.ahead (b :: s) .missingValue)

/-- Skips the name of a member and the colon after it. -/
def skipName (s : Bytes) : Except Fault Bytes :=
  match skipBlanks s with
  | [] => .error (.here [] .unfinishedObject)
  | b :: s =>
    if b = quotationMark then do
      let s ← skipString (s.length + 1) s
      expectColon s
    else .error (.ahead (b :: s) .nameNotString)

/-! ## Values -/

/-- Where skipping stands: before a value, or after a value or an opening byte. -/
inductive Stand where
  | before
  | after (itemRead : Bool)

/-- Skips until every frame is closed. -/
def skipFrames : Nat → Stand → List Frame → Bytes → Except Fault Bytes
  | 0, _, _, s => .error (.here s .unfinishedValue)
  | fuel + 1, .before, frames, s =>
    match skipBlanks s with
    | [] => .error (.here [] .unfinishedValue)
    | b :: s =>
      if b = openBracket then skipFrames fuel (.after false) (.array :: frames) s
      else if b = openBrace then skipFrames fuel (.after false) (.object :: frames) s
      else do
        let s ← skipScalar b s
        skipFrames fuel (.after true) frames s
  | _ + 1, .after _, [], s => .ok s
  | fuel + 1, .after itemRead, frame :: frames, s =>
    match skipBlanks s with
    | [] => .error (.here [] frame.unfinished)
    | b :: s =>
      if b = comma && itemRead then enter fuel frame frames s
      else if b = frame.closing then skipFrames fuel (.after true) frames s
      else if itemRead then .error (.ahead (b :: s) frame.missingSeparator)
      else enter fuel frame frames (b :: s)
where
  /-- Goes to the value of the next item or member. -/
  enter (fuel : Nat) (frame : Frame) (frames : List Frame) (s : Bytes) : Except Fault Bytes :=
    match frame with
    | .array => skipFrames fuel .before (frame :: frames) s
    | .object => do
      let s ← skipName s
      skipFrames fuel .before (frame :: frames) s

/-- Skips a value. -/
def skipValue (s : Bytes) : Except Fault Bytes := skipFrames (2 * s.length + 2) .before [] s

end DaemonRpc.Json
