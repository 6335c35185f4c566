import DaemonRpc.Client.Operation

/-!
# Calls

A `Call` is whatever a client can be asked to send: a typed operation, the order to stop, a
method of the catalogue, or a method by its name.

* `Call.route` decides what goes to the daemon.  A name in the catalogue counts as its
  method, in any case of letters; a method that is not supported goes nowhere.
* `Call.conclude` is the answer to the caller, from what the transport answered.
-/

namespace DaemonRpc

/-- What a client can be asked to send. -/
inductive Call where
  | operation (op : Operation)
  | stop
  | invoke (method : Method) (params : Params)
  | byName (name : String) (params : Params)

namespace Call

/-- The method and the parameters of a catalogued call; none for an unsupported method. -/
def catalogued (method : Method) (params : Params) : Except Error (String × Params) :=
  if method.supported then .ok (method.wireName, params) else .error (.unsupported method)

/-- The method and the parameters that are sent. -/
def route : Call → Except Error (String × Params)
  | operation op => catalogued op.method op.params
  | stop => catalogued .stop .none
  | invoke method params => catalogued method params
  | byName name params =>
    match Method.ofName? name with
    | some method => catalogued method params
    | none => .ok (name, params)

/-- The type of the answer. -/
def Result : Call → Type
  | operation op => op.Result
  | stop => String
  | invoke _ _ => Json
  | byName _ _ => Json

/-- The answer, from the result of a reply. -/
def interpret : (c : Call) → Json → Except ProtocolError c.Result
  | operation op, v => op.interpret v
  | stop, v => decodeResult String Method.stop.wireName v
  | invoke _ _, v => .ok v
  | byName _ _, v => .ok v

/-- The answer to a call that was sent with the given id, from what the transport
answered. -/
def conclude (c : Call) (id : String) (answer : Except TransportError Bytes) :
    Except Error c.Result :=
  match receive id answer with
  | .ok v => (c.interpret v).mapError .protocol
  | .error e => .error e

/-- How an answer is written. -/
def encode : (c : Call) → c.Result → Json
  | operation op, r => op.shaped.encode r
  | stop, message => .string message
  | invoke _ _, v => v
  | byName _ _, v => v

end Call

end DaemonRpc
