import DaemonRpc.Rpc.ErrorObject
import DaemonRpc.Rpc.Method
import DaemonRpc.Process.OsError

/-!
# What can go wrong

A call fails in one of four layers: the transport does not deliver a reply, the reply
violates the protocol, the daemon reports an error, or the connection to the daemon cannot
be made.  A method that this library does not issue fails before any of them.

Each type has one function for its words, and `Error.sources` lists the causes behind an
error, the nearest first.
-/

namespace DaemonRpc

/-- The transport did not deliver a reply. -/
inductive TransportError where
  /-- The daemon answered with a status other than 200. -/
  | httpStatus (code : UInt16) (reason : String)
  /-- The connection was refused, broken off, or timed out. -/
  | io (detail : String)
deriving DecidableEq, Inhabited

/-- The transport error in words. -/
def TransportError.message : TransportError → String
  | .httpStatus code reason => s!"HTTP {code} " ++ reason
  | .io detail => "I/O error: " ++ detail

/-- A reply violated the protocol. -/
inductive ProtocolError where
  | malformed (detail : String)
  /-- The reply has no id; an error object in it is the cause. -/
  | missingId (cause : Option RpcError)
  | idMismatch (expected actual : String)
  | unexpectedShape (method detail : String)
  | encode (detail : String)
deriving Inhabited

/-- The protocol error in words. -/
def ProtocolError.message : ProtocolError → String
  | .malformed detail => "Malformed response: " ++ detail
  | .missingId none => "Response is missing its id"
  | .missingId (some cause) => "Response is missing its id (" ++ cause.text ++ ")"
  | .idMismatch expected actual =>
    "Response id " ++ Text.quote actual ++ " does not match request id " ++ Text.quote expected
  | .unexpectedShape method detail => "Unexpected result shape for " ++ method ++ ": " ++ detail
  | .encode detail => "Failed to encode request: " ++ detail

/-- Any failure of this library. -/
inductive Error where
  | transport (e : TransportError)
  | protocol (e : ProtocolError)
  | rpc (e : RpcError)
  | invalidEndpoint (endpoint detail : String)
  | launchFailed (binary : String) (source : OsError)
  /-- Every probe failed; the last one with `last`. -/
  | unreachable (attempts : UInt32) (last : Error)
  | cancelled (attempts : UInt32)
  | unsupported (method : Method)
deriving Inhabited

namespace Error

/-- The error in words. -/
def message : Error → String
  | .transport e => e.message
  | .protocol e => e.message
  | .rpc e => e.text
  | .invalidEndpoint endpoint detail => "Invalid daemon endpoint " ++ endpoint ++ ": " ++ detail
  | .launchFailed binary source =>
    "Failed to launch daemon " ++ binary ++ ": " ++ source.message
  | .unreachable attempts last =>
    s!"Daemon unreachable after {attempts} attempt(s): " ++ last.message
  | .cancelled attempts => s!"Connection cancelled after {attempts} attempt(s)"
  | .unsupported method => "Method not supported by this client: " ++ method.wireName

/-- The causes behind an error, in words, the nearest first. -/
def sources : Error → List String
  | .protocol (.missingId (some cause)) => [cause.text]
  | .launchFailed _ source => [source.message]
  | _ => []

/-- The error object that the daemon sent, also one in a reply without an id. -/
def rpcError? : Error → Option RpcError
  | .rpc e => some e
  | .protocol (.missingId cause) => cause
  | _ => none

/-- The code that the daemon reported. -/
def rpcCode? (e : Error) : Option Int64 := e.rpcError?.map (·.code)

/-- A failure of the transport. -/
def isTransport : Error → Bool
  | .transport _ => true
  | _ => false

/-- A violation of the protocol. -/
def isProtocol : Error → Bool
  | .protocol _ => true
  | _ => false

end Error

end DaemonRpc
