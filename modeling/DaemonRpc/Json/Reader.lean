import DaemonRpc.Json.Reader.Token

/-!
# Reading a JSON text

`Json.read` reads a whole text: one value with blanks around it.  Arrays and objects may
stand at most `depthLimit` deep inside one another.  The value of an object holds its
members in ascending order of names, the last value of a repeated name.

The readers of items and members are loops over a reader of one value; the depth that is
left is the only thing that the recursion through values counts.
-/

namespace DaemonRpc.Json

open Ascii

/-- How deep arrays and objects may stand inside one another. -/
def depthLimit : Nat := 127

/-- What an array or object asks of the place where its next item or member could start. -/
inductive Turn where
  | done
  | next
deriving DecidableEq

/-- Whether another item follows; skips the comma before it. -/
def nextItem (first : Bool) (s : Bytes) : Except Fault (Turn × Bytes) :=
  match skipBlanks s with
  | [] => .error (.here [] .unfinishedArray)
  | b :: s =>
    if b = closeBracket then .ok (.done, s)
    else if first then .ok (.next, b :: s)
    else if b = comma then
      match skipBlanks s with
      | [] => .error (.here [] .unfinishedValue)
      | b :: s =>
        if b = closeBracket then .error (.ahead (b :: s) .trailingComma) else .ok (.next, b :: s)
    else .error (.ahead (b :: s) .missingItemSeparator)

/-- Whether another member follows; skips the comma before it and the quotation mark of its
name. -/
def nextMember (first : Bool) (s : Bytes) : Except Fault (Turn × Bytes) :=
  match skipBlanks s with
  | [] => .error (.here [] .unfinishedObject)
  | b :: s =>
    if b = closeBrace then .ok (.done, s)
    else if first then
      if b = quotationMark then .ok (.next, s) else .error (.ahead (b :: s) .nameNotString)
    else if b = comma then
      match skipBlanks s with
      | [] => .error (.here [] .unfinishedValue)
      | b :: s =>
        if b = quotationMark then .ok (.next, s)
        else if b = closeBrace then .error (.ahead (b :: s) .trailingComma)
        else .error (.ahead (b :: s) .nameNotString)
    else .error (.ahead (b :: s) .missingMemberSeparator)

/-- Takes the colon between a name and its value. -/
def expectColon (s : Bytes) : Except Fault Bytes :=
  match skipBlanks s with
  | [] => .error (.here [] .unfinishedObject)
  | b :: s => if b = colon then .ok s else .error (.ahead (b :: s) .missingColon)

/-- The items of an array after its opening bracket, in reverse, before `done`. -/
def readItems (item : Bytes → Except Fault (Json × Bytes)) :
    Nat → List Json → Bytes → Except Fault (List Json × Bytes)
  | 0, _, s => .error (.here s .unfinishedArray)
  | fuel + 1, done, s => do
    let (turn, s) ← nextItem done.isEmpty s
    match turn with
    | .done => .ok (done, s)
    | .next =>
      let (v, s) ← item s
      readItems item fuel (v :: done) s

/-- The members of an object after its opening brace, put into `done`. -/
def readMembers (item : Bytes → Except Fault (Json × Bytes)) :
    Nat → Bool → List (String × Json) → Bytes → Except Fault (List (String × Json) × Bytes)
  | 0, _, _, s => .error (.here s .unfinishedObject)
  | fuel + 1, first, done, s => do
    let (turn, s) ← nextMember first s
    match turn with
    | .done => .ok (done, s)
    | .next =>
      let (name, s) ← stringToken s
      let s ← expectColon s
      let (v, s) ← item s
      readMembers item fuel false (insertMember name v done) s

/-- A value that is not an array or an object, from its first byte `b`. -/
def scalar (b : UInt8) (s : Bytes) : Except Fault (Json × Bytes) :=
  if b = byte 'n' then do
    let s ← expectWord [byte 'u', byte 'l', byte 'l'] s
    .ok (.null, s)
  else if b = byte 't' then do
    let s ← expectWord [byte 'r', byte 'u', byte 'e'] s
    .ok (.bool true, s)
  else if b = byte 'f' then do
    let s ← expectWord [byte 'a', byte 'l', byte 's', byte 'e'] s
    .ok (.bool false, s)
  else if b = minus || isDigit b then do
    let (n, s) ← numberToken (b :: s)
    .ok (.number n, s)
  else if b = quotationMark then do
    let (text, s) ← stringToken s
    .ok (.string text, s)
  else .error (.ahead (b :: s) .missingValue)

/-- A value inside which arrays and objects may stand `depth` deep. -/
def readValue : Nat → Bytes → Except Fault (Json × Bytes)
  | depth, s =>
    match skipBlanks s with
    | [] => .error (.here [] .unfinishedValue)
    | b :: s =>
      if b = openBracket then
        match depth with
        | 0 => .error (.ahead (b :: s) .tooDeep)
        | depth + 1 => do
          let (reversed, s) ← readItems (readValue depth) (s.length + 1) [] s
          .ok (.array reversed.reverse, s)
      else if b = openBrace then
        match depth with
        | 0 => .error (.ahead (b :: s) .tooDeep)
        | depth + 1 => do
          let (members, s) ← readMembers (readValue depth) (s.length + 1) true [] s
          .ok (.object members, s)
      else scalar b s

/-- Blanks up to the end of the text. -/
def expectEnd (s : Bytes) : Except Fault Unit :=
  match skipBlanks s with
  | [] => .ok ()
  | b :: s => .error (.ahead (b :: s) .trailingText)

/-- The value that the bytes are the text of. -/
def read (input : Bytes) : Except Fault Json := do
  let (v, s) ← readValue depthLimit input
  expectEnd s
  return v

/-- The value that a text is the text of. -/
def ofText? (s : String) : Option Json := (read (Bytes.utf8 s)).toOption

end DaemonRpc.Json
