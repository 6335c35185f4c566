import DaemonRpc.Rpc.ErrorObject
import DaemonRpc.Json.Reader.Skip

/-!
# Reading an error object straight from a text

`RpcError.read` reads an error object while it goes through the text, and stops at the first
member that does not fit.  Its faults therefore have a place, and one place may stand for a
fault of the shape where the text behind it is not JSON at all.

Members that an error object does not have are skipped, and a member may not be repeated.
A fault that concerns the object as a whole is placed behind its closing byte.
-/

namespace DaemonRpc

/-- Why a text is not the text of an error object. -/
inductive TextFault where
  | notJson (fault : Json.Fault)
  | misshapen (fault : ShapeFault) (unread : Nat)

namespace TextFault

/-- The fault in words, with its place. -/
def message (input : Bytes) : TextFault → String
  | .notJson fault => fault.message input
  | .misshapen fault unread =>
    fault.message ++ (Json.Place.after input (input.length - unread)).suffix

/-- A fault of the shape that is seen with `rest` left. -/
def here (rest : Bytes) (fault : ShapeFault) : TextFault := .misshapen fault rest.length

end TextFault

namespace RpcError

open Json Ascii

/-- Runs a reader that knows nothing of shapes. -/
def plain {α : Type} (r : Except Fault α) : Except TextFault α := r.mapError .notJson

/-- The fault of the value at the front, which should have been something else.  The value
is read, except that an array or an object is only looked at. -/
def refuse {α : Type} (wanted : String) (b : UInt8) (s : Bytes) : Except TextFault α := do
  if b = openBracket then .error (.here (b :: s) (.wrongType .sequence wanted))
  else if b = openBrace then .error (.here (b :: s) (.wrongType .map wanted))
  else
    let (v, rest) ← plain (scalar b s)
    .error (.here rest (.wrongType (.ofJson v) wanted))

/-- Skips the blanks before a value. -/
def valueStart (s : Bytes) : Except TextFault (UInt8 × Bytes) :=
  match skipBlanks s with
  | [] => .error (.notJson (.here [] .unfinishedValue))
  | b :: s => .ok (b, s)

/-- Reads the code. -/
def readCode (s : Bytes) : Except TextFault (Int64 × Bytes) := do
  let (b, s) ← valueStart s
  if b = minus || isDigit b then
    let (n, rest) ← plain (numberToken (b :: s))
    match Shaped.decodeInt64 (.number n) with
    | .ok code => return (code, rest)
    | .error fault => .error (.here rest fault)
  else refuse "i64" b s

/-- Reads the message. -/
def readMessage (s : Bytes) : Except TextFault (String × Bytes) := do
  let (b, s) ← valueStart s
  if b = quotationMark then plain (stringToken s) else refuse "a string" b s

/-- Reads the data; `null` is none.  They stand inside the error object, which takes one
level of the depth. -/
def readData (s : Bytes) : Except TextFault (Option Json × Bytes) := do
  let (v, rest) ← plain (readValue (depthLimit - 1) s)
  return (dataOf v, rest)

/-! ## The members of an object -/

/-- The bytes behind the closing byte of the object, or, where another byte stands, the
bytes from there. -/
def behindObject (s : Bytes) : Bytes :=
  match skipBlanks s with
  | b :: rest => if b = closeBrace then rest else b :: rest
  | [] => []

/-- Takes in the member of the given name, whose colon is the next byte. -/
def readMember (p : Partial) (name : String) (s : Bytes) : Except TextFault (Partial × Bytes) := do
  let repeated := TextFault.here (behindObject s) (.duplicateField name)
  if name = "code" then
    if p.code.isSome then .error repeated
    else
      let (code, s) ← readCode (← plain (expectColon s))
      return ({ p with code := some code }, s)
  else if name = "message" then
    if p.message.isSome then .error repeated
    else
      let (message, s) ← readMessage (← plain (expectColon s))
      return ({ p with message := some message }, s)
  else if name = "data" then
    if p.data.isSome then .error repeated
    else
      let (data, s) ← readData (← plain (expectColon s))
      return ({ p with data := some data }, s)
  else
    let s ← plain (expectColon s >>= skipValue)
    return (p, s)

/-- Reads members up to the closing brace. -/
def readErrorMembers : Nat → Bool → Partial → Bytes → Except TextFault (RpcError × Bytes)
  | 0, _, _, s => .error (.notJson (.here s .unfinishedObject))
  | fuel + 1, first, p, s => do
    let (turn, s) ← plain (nextMember first s)
    match turn with
    | .done =>
      match p.finish with
      | .ok e => return (e, s)
      | .error fault => .error (.here s fault)
    | .next =>
      let (name, s) ← plain (stringToken s)
      let (p, s) ← readMember p name s
      readErrorMembers fuel false p s

/-! ## The items of an array -/

/-- Closes an array of three items. -/
def closeItems (s : Bytes) : Except Fault Bytes :=
  match skipBlanks s with
  | [] => .error (.here [] .unfinishedArray)
  | b :: s =>
    if b = closeBracket then .ok s
    else if b = comma then
      let rest := skipBlanks s
      .error (.ahead rest
        (if rest.head? = some closeBracket then .trailingComma else .trailingText))
    else .error (.ahead (b :: s) .trailingText)

/-- Reads the items of an array: a code, and then perhaps a message, and then perhaps data. -/
def readErrorItems (s : Bytes) : Except TextFault (RpcError × Bytes) := do
  let (turn, s) ← plain (nextItem true s)
  if turn = .done then .error (.here s (.wrongLength 0 wantedItems))
  else
    let (code, s) ← readCode s
    let (turn, s) ← plain (nextItem false s)
    if turn = .done then return ({ code, message := "" }, s)
    else
      let (message, s) ← readMessage s
      let (turn, s) ← plain (nextItem false s)
      if turn = .done then return ({ code, message }, s)
      else
        let (data, s) ← readData s
        let s ← plain (closeItems s)
        return ({ code, message, data }, s)

/-- Reads an error object from the whole text. -/
def read (input : Bytes) : Except TextFault RpcError := do
  let (b, s) ← valueStart input
  let (e, rest) ←
    if b = openBracket then readErrorItems s
    else if b = openBrace then readErrorMembers (s.length + 1) true {} s
    else refuse "struct RpcError" b s
  plain (expectEnd rest)
  return e

end RpcError

end DaemonRpc
