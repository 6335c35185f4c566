import DaemonRpc.Json.Shape

/-!
# Errors that the daemon reports

The `error` member of a reply holds a code, a message and sometimes data.  `RpcError` is
that object.  It is read from a value as a record whose code is required: `RpcError.ofJson`.
A member `data` of `null` reads as no data, and `RpcError.toJson` leaves absent data out.
-/

namespace DaemonRpc

/-- An error that the daemon reported. -/
structure RpcError where
  code : Int64
  message : String
  data : Option Json := none
deriving Inhabited

namespace RpcError

/-- No method of that name. -/
def methodNotFound : Int64 := -32601

/-- Parameters that the method does not take. -/
def invalidParams : Int64 := -32602

/-- Any other failure of a method. -/
def miscError : Int64 := -1

/-- The daemon is still loading its data. -/
def inWarmup : Int64 := -28

/-- The daemon is up but does not serve requests yet. -/
def warmingUp (e : RpcError) : Bool := e.code = inWarmup

/-- The error in words. -/
def text (e : RpcError) : String :=
  "RPC error " ++ toString e.code.toInt ++ ": " ++ e.message

/-- The error object; absent data is left out. -/
def toJson (e : RpcError) : Json :=
  .object ([("code", .ofInt64 e.code), ("message", .string e.message)] ++
    (e.data.map fun d => ("data", d)).toList)

/-! ## Reading an error object -/

/-- What has been read of an error object. -/
structure Partial where
  code : Option Int64 := none
  message : Option String := none
  data : Option (Option Json) := none

/-- Data of `null` are no data. -/
def dataOf : Json → Option Json
  | .null => none
  | v => some v

/-- The error object whose members have been read. -/
def Partial.finish (p : Partial) : Except ShapeFault RpcError :=
  match p.code with
  | none => .error (.missingField "code")
  | some code => .ok { code, message := p.message.getD "", data := p.data.getD none }

/-- Takes one member in. -/
def Partial.member (p : Partial) (m : String × Json) : Except ShapeFault Partial :=
  if m.1 = "code" then do return { p with code := some (← Shaped.decodeInt64 m.2) }
  else if m.1 = "message" then do return { p with message := some (← Shaped.decodeString m.2) }
  else if m.1 = "data" then .ok { p with data := some (dataOf m.2) }
  else .ok p

/-- What an array of another length should have held. -/
def wantedItems : String := "struct RpcError with 3 elements"

/-- Reads an error object, or an array of its members in their order. -/
def ofJson : Json → Except ShapeFault RpcError
  | .object members => do
    let p ← members.foldlM Partial.member {}
    p.finish
  | .array [] => .error (.wrongLength 0 wantedItems)
  | .array (code :: rest) => do
    let code ← Shaped.decodeInt64 code
    match rest with
    | [] => return { code, message := "" }
    | message :: rest =>
      let message ← Shaped.decodeString message
      match rest with
      | [] => return { code, message }
      | [data] => return { code, message, data := dataOf data }
      | _ :: more => .error (.wrongLength (3 + more.length) "fewer elements in array")
  | v => Shaped.mismatch v "struct RpcError"

instance : Shaped RpcError := ⟨ofJson, toJson⟩

end RpcError

end DaemonRpc
