import DaemonRpc.Client.Journal
import DaemonRpc.Rpc.Response
import DaemonRpc.Time.Timer

/-!
# The wire

A client shares one wire with the daemon.  `Wire` is what has happened on it: the time, the
requests so far, whether the caller has cancelled, and the journal of events.

`Surroundings` are what the client does not decide itself: where ids come from, and how the
transport answers a request.  An answer takes time, during which the caller may cancel.

Times are in milliseconds, the resolution of the timer.
-/

namespace DaemonRpc

/-- A request as the transport sees it. -/
structure Sent where
  /-- How many requests were sent before. -/
  number : Nat
  /-- The id of the request before. -/
  previous : Option String
  request : Request

/-- How the transport deals with a request. -/
structure Exchange where
  /-- The caller cancels as the request arrives. -/
  cancels : Bool := false
  /-- The time until the answer. -/
  delay : Nat := 0
  answer : Except TransportError Bytes

/-- What a client does not decide itself. -/
structure Surroundings where
  newId : Nat → String
  transport : Sent → Exchange

/-- What has happened on a wire. -/
structure Wire where
  clock : Nat := 0
  /-- The caller has cancelled. -/
  cancelled : Bool := false
  /-- When the caller is going to cancel. -/
  cancelAt : Option Nat := none
  /-- How many requests were sent. -/
  sent : Nat := 0
  /-- The id of the last request. -/
  previous : Option String := none
  /-- The events, the latest first. -/
  journal : List Event := []

namespace Wire

/-- Adds an event to the journal. -/
def note (w : Wire) (e : Event) : Wire := { w with journal := e :: w.journal }

/-- Adds a line of the log. -/
def log (w : Wire) (entry : LogEntry) : Wire := w.note (.log entry)

/-- The events in their order, and the wire with an empty journal. -/
def drain (w : Wire) : List Event × Wire := (w.journal.reverse, { w with journal := [] })

/-- The caller cancels now. -/
def cancelNow (w : Wire) : Wire := { w with cancelled := true }

/-- The caller is going to cancel after a number of milliseconds. -/
def cancelIn (w : Wire) (millis : Nat) : Wire :=
  { w with cancelAt := some (w.clock + Timer.clip millis) }

/-- Time goes on to the given one. -/
def advance (w : Wire) (time : Nat) : Wire := { w with clock := max w.clock time }

/-! ## Waiting -/

/-- Waits up to a time, unless the caller cancels; says whether the wait came to its end.
What is due already is not waited for.  A cancellation takes effect while somebody waits, and
at the very end of a wait the end comes first. -/
def waitUntil (w : Wire) (due : Nat) : Bool × Wire :=
  if due ≤ w.clock then (true, w)
  else if w.cancelled then (false, w)
  else
    match w.cancelAt with
    | none => (true, w.advance due)
    | some t =>
      if t < due then (false, (w.advance t).cancelNow) else (true, w.advance due)

/-- Waits for a span, unless the caller has cancelled or cancels meanwhile. -/
def sleep (w : Wire) (d : Duration) : Bool × Wire :=
  if w.cancelled then (false, w) else w.waitUntil (w.clock + Timer.millis d)

/-! ## Sending -/

/-- Sends a request under a new id. -/
def send (s : Surroundings) (w : Wire) (method : String) (params : Params) :
    Request × Exchange × Wire :=
  let request : Request := { method, params, id := s.newId w.sent }
  let exchange := s.transport { number := w.sent, previous := w.previous, request }
  let w := (w.log (.request request.wire)).note (.sent request w.clock)
  let w := { w with sent := w.sent + 1, previous := some request.id }
  (request, exchange, if exchange.cancels then w.cancelNow else w)

/-- Takes an answer. -/
def take (w : Wire) (answer : Except TransportError Bytes) : Wire :=
  match answer with
  | .ok body => w.log (.response body)
  | .error _ => w

/-! ## The process -/

/-- Terminates a process and lets it go. -/
def terminate (w : Wire) : Wire := (w.note (.process .terminate)).note .released

end Wire

end DaemonRpc
