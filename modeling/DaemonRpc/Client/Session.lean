import DaemonRpc.Client.Call
import DaemonRpc.Client.Establishment

/-!
# A client at work

Calls on one client share its wire and its process, and nothing else.  A `Task` is a call
under way; `Session.step` takes one step of a task, and the steps of several tasks may follow
each other in any order:

* a call that is ready is sent, or ends because its method is not supported;
* a call that has been sent gets its answer;
* a stop that was acknowledged reaps the process, if the client still owned it then.

`Session.perform` takes the steps of one call, and `Session.stepAt` one step of one of several
calls.
-/

namespace DaemonRpc

/-- A connection at work. -/
structure Session where
  client : Client
  wire : Wire

/-- How far a call is. -/
inductive Progress (c : Call) where
  | ready
  /-- The request was sent under `id`; the answer comes at `due`. -/
  | awaiting (id : String) (due : Nat) (answer : Except TransportError Bytes)
  /-- The daemon stops, and its process is given time to exit. -/
  | reaping (process : ProcessHandle) (result : c.Result)
  | done (outcome : Except Error c.Result)

/-- A call under way. -/
structure Task where
  call : Call
  progress : Progress call := .ready

namespace Task

/-- The outcome of a call that has come to its end. -/
def outcome? (t : Task) : Option (Except Error t.call.Result) :=
  match t.progress with
  | .done outcome => some outcome
  | _ => none

/-- The outcome of a call that has come to its end, with the answer as it is written. -/
def written? (t : Task) : Option (Except Error Json) :=
  t.outcome?.map fun outcome => outcome.map t.call.encode

/-- The outcome of a call that has come to its end, with the result read as a type of its own; a
result of another shape is a fault of the named method. -/
def readAs? (α : Type) [Shaped α] (method : String) (t : Task) : Option (Except Error α) :=
  t.written?.map fun outcome =>
    outcome.bind fun v => (decodeResult α method v).mapError .protocol

/-- A call that has come to its end. -/
def isDone (t : Task) : Bool := t.outcome?.isSome

end Task

namespace Session

/-- Changes the wire. -/
def onWire (s : Session) (f : Wire → Wire) : Session := { s with wire := f s.wire }

/-- Adds a line of the log. -/
def log (s : Session) (entry : LogEntry) : Session := s.onWire (·.log entry)

/-- The client lets go of the process. -/
def disown (s : Session) : Session := { s with client := { s.client with process := none } }

/-- Gives a process time to exit and terminates it if it does not. -/
def reap (p : ProcessHandle) (s : Session) : Session :=
  let s := s.onWire (·.note (.process (.waitForExit shutdownGrace)))
  let (s, fault) : Session × Option String :=
    match p.exits with
    | .error reason => (s, some reason)
    | .ok true => (s, none)
    | .ok false =>
      let s := (s.log .stillRunning).onWire (·.note (.process .terminate))
      match p.terminates with
      | .ok () => (s, none)
      | .error reason => (s, some reason)
  let s := s.onWire (·.note .released)
  match fault with
  | none => s
  | some reason => s.log (.reapingBrokeOff reason)

/-- Sends a call that is ready, or ends it. -/
def dispatch (env : Surroundings) (c : Call) (s : Session) : Progress c × Session :=
  match c.route with
  | .error e => (.done (.error e), s)
  | .ok (method, params) =>
    let (request, exchange, wire) := s.wire.send env method params
    (.awaiting request.id (wire.clock + exchange.delay) exchange.answer, { s with wire })

/-- What a successful call does to the client: an acknowledged stop takes the process out of
its hands. -/
def settle : (c : Call) → c.Result → Session → Progress c × Session
  | .stop, message, s =>
    let s := s.log (.stopping message)
    match s.client.process with
    | none => (.done (.ok message), s)
    | some p => (.reaping p message, s.disown)
  | _, result, s => (.done (.ok result), s)

/-- Gives a call its answer. -/
def deliver (c : Call) (id : String) (due : Nat) (answer : Except TransportError Bytes)
    (s : Session) : Progress c × Session :=
  let s := s.onWire fun w => (w.advance due).take answer
  match c.conclude id answer with
  | .error e => (.done (.error e), s)
  | .ok result => settle c result s

/-- One step of a task. -/
def step (env : Surroundings) (t : Task) (s : Session) : Task × Session :=
  let (progress, s) :=
    match t.progress with
    | .ready => dispatch env t.call s
    | .awaiting id due answer => deliver t.call id due answer s
    | .reaping p result => (.done (.ok result), reap p s)
    | .done outcome => (.done outcome, s)
  ({ call := t.call, progress }, s)

/-! ## Steps together -/

/-- The steps of one call; three are enough for any. -/
def perform (env : Surroundings) (c : Call) (s : Session) : Task × Session :=
  let (t, s) := step env { call := c } s
  let (t, s) := step env t s
  step env t s

/-- One step of the task of the given number. -/
def stepAt (env : Surroundings) (i : Nat) (ts : List Task) (s : Session) : List Task × Session :=
  match ts[i]? with
  | none => (ts, s)
  | some t =>
    let (t, s) := step env t s
    (ts.set i t, s)

/-! ## The end -/

/-- The client is dropped, and with it a process that it owns. -/
def drop (s : Session) : Session :=
  match s.client.process with
  | none => s
  | some _ => (s.log .dropped).disown.onWire (·.terminate)

end Session

/-- The client for logs. -/
def Client.debugText (c : Client) : String :=
  "DaemonClient \x7b config: " ++ c.config.debugText ++ s!", version: {c.status.version.toInt}" ++
    ", owns_process: " ++ (if c.process.isSome then "true" else "false") ++ " \x7d"

end DaemonRpc
