import DaemonRpc.Json.Reader
import DaemonRpc.Json.Printer

/-!
# Requests

A request is an object with four members: the version of the protocol, the method, the
parameters and an id.  The parameters are always there; a call without any has `null`.

`Request.chars` writes the text and `Request.wire` its bytes.
-/

namespace DaemonRpc

/-- The parameters of a call. -/
inductive Params where
  | none
  | positional (items : List Json)
  | named (members : List (String × Json))
deriving Inhabited

namespace Params

/-- Whether the call has no parameters. -/
def isNone : Params → Bool
  | .none => true
  | _ => false

/-- The member `params` of a request. -/
def toJson : Params → Json
  | .none => .null
  | .positional items => .array items
  | .named members => .object members

/-- Parameters from a value: the items of an array or the members of an object; any other
value means none. -/
def ofJson : Json → Params
  | .array items => .positional items
  | .object members => .named members
  | _ => .none

end Params

/-- The version of the protocol. -/
def jsonrpcVersion : String := "1.0"

/-- A call before it is written. -/
structure Request where
  method : String
  params : Params
  id : String

namespace Request

/-- The request as an object, with its members in the order in which they are written. -/
def toJson (r : Request) : Json :=
  .object [("jsonrpc", .string jsonrpcVersion), ("method", .string r.method),
    ("params", r.params.toJson), ("id", .string r.id)]

/-- The text of a request. -/
def text (r : Request) : String := r.toJson.text

/-- The bytes of a request. -/
def wire (r : Request) : Bytes := Bytes.utf8 r.text

end Request

end DaemonRpc
