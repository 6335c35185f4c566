import DaemonRpc.Error
import DaemonRpc.Json.Reader

/-!
# Responses

A response is an object with an id and a result or an error.  `Response.ofBytes` reads one
from the bytes of a reply, or says how they are malformed.  `Response.outcome` then decides
what the reply means to the request of a given id:

* without an id it belongs to no request, whatever else it holds;
* an error that it reports wins over a foreign id;
* a foreign id belongs to another request;
* otherwise its result is the outcome, and an absent result is `null`.

`receive` joins the two for what a transport delivers.
-/

namespace DaemonRpc

/-- A response after its members have been told apart. -/
structure Response where
  id : Option String := none
  result : Option Json := none
  error : Option RpcError := none
deriving Inhabited

/-- How the bytes of a reply fail to be a response. -/
inductive Malformation where
  | notJson (cause : Json.Cause) (place : Json.Place)
  | notObject (kind : String)
  | errorObject (fault : ShapeFault)
deriving DecidableEq

/-- The malformation in words. -/
def Malformation.message : Malformation → String
  | .notJson cause place => "invalid JSON: " ++ cause.message ++ place.suffix
  | .notObject kind => "expected a JSON object, got " ++ kind
  | .errorObject fault => "invalid error object: " ++ fault.message

namespace Response

/-- The id of a response: a string as it is, any other value as its text; `null` is none. -/
def idOf : Option Json → Option String
  | none => none
  | some .null => none
  | some (.string s) => some s
  | some v => some v.text

/-- The error of a response; `null` is none. -/
def errorOf : Option Json → Except Malformation (Option RpcError)
  | none => .ok none
  | some .null => .ok none
  | some v =>
    match RpcError.ofJson v with
    | .ok e => .ok (some e)
    | .error fault => .error (.errorObject fault)

/-- The response that a value is. -/
def ofJson (v : Json) : Except Malformation Response :=
  match v with
  | .object members => do
    let error ← errorOf (Json.find? "error" members)
    return { id := idOf (Json.find? "id" members), result := Json.find? "result" members, error }
  | v => .error (.notObject v.kind)

/-- The response that the bytes of a reply are. -/
def ofBytes (bytes : Bytes) : Except Malformation Response :=
  match Json.read bytes with
  | .ok v => ofJson v
  | .error fault => .error (.notJson fault.cause (fault.place bytes))

/-- What a response means to the request of the given id. -/
def outcome (requestId : String) (r : Response) : Except Error Json :=
  match r.id, r.error with
  | none, cause => .error (.protocol (.missingId cause))
  | some _, some e => .error (.rpc e)
  | some id, none =>
    if id = requestId then .ok (r.result.getD .null)
    else .error (.protocol (.idMismatch requestId id))

end Response

/-- What the bytes of a reply mean to the request of the given id. -/
def receiveBytes (requestId : String) (bytes : Bytes) : Except Error Json :=
  match Response.ofBytes bytes with
  | .ok r => r.outcome requestId
  | .error m => .error (.protocol (.malformed m.message))

/-- What the transport's answer to a request means to its caller. -/
def receive (requestId : String) : Except TransportError Bytes → Except Error Json
  | .ok bytes => receiveBytes requestId bytes
  | .error e => .error (.transport e)

/-- Reads a result as a value of a known shape, in the name of the method that gave it. -/
def decodeResult (α : Type) [Shaped α] (method : String) (v : Json) : Except ProtocolError α :=
  match Shaped.decode v with
  | .ok a => .ok a
  | .error fault =>
    .error (.unexpectedShape method (fault.message ++ " (got " ++ v.kind ++ ")"))

end DaemonRpc
