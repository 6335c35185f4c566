import DaemonRpc.Client.Wire
import DaemonRpc.Result.Node

/-!
# Establishing a connection

An establishment probes the daemon until it answers, the attempts run out, or the caller
cancels.  Before each probe it waits a little longer.

`Establishment.step` is one step of it, and `Establishment.run` goes on until it is over.
Each attempt takes three steps: it is announced, it is waited for, and the daemon is asked.

* A process that was handed over is terminated when the establishment fails, and goes to the
  client when it succeeds.
* The delays that were waited for are added without a limit; `Ending.overflow` is where the
  sum cannot be represented.
-/

namespace DaemonRpc

/-- A connection to a daemon that answered a probe. -/
structure Client where
  config : ConnectionConfig
  /-- What the daemon said of itself when it was probed. -/
  status : DaemonStatus
  /-- The daemon's process, if it was handed over and is still owned. -/
  process : Option ProcessHandle

/-- How an establishment ends. -/
inductive Ending where
  | connected (client : Client)
  | failed (e : Error)
  /-- The sum of the delays cannot be represented. -/
  | overflow

/-- What an establishment is asked to do. -/
structure Establisher where
  config : ConnectionConfig
  probe : Method := probeMethod
  process : Option ProcessHandle := none

/-- What comes next. -/
inductive Stage where
  | announcing (attempt : UInt32)
  | waiting (attempt : UInt32)
  | asking (attempt : UInt32)
  | over (ending : Ending)

/-- An establishment under way. -/
structure Establishment where
  stage : Stage := .announcing 1
  state : EstablishState := .idle
  stats : RetryStats := {}
  wire : Wire

namespace Establishment

/-- Adds a line of the log. -/
def log (r : Establishment) (entry : LogEntry) : Establishment :=
  { r with wire := r.wire.log entry }

/-- Goes to another state, unless the present one is not left. -/
def enter (r : Establishment) (next : EstablishState) : Establishment :=
  if r.state.isTerminal then r
  else { r.log (.entering r.state next) with state := next }

/-- Nothing comes next. -/
def finish (r : Establishment) (ending : Ending) : Establishment :=
  { r with stage := .over ending }

/-- Goes to the failed state and terminates the process. -/
def fail (e : Establisher) (r : Establishment) : Establishment :=
  let r := r.enter .failed
  match e.process with
  | none => r
  | some p =>
    let r := { r with wire := r.wire.terminate }
    match p.terminates with
    | .ok () => r
    | .error reason => r.log (.terminationBrokeOff reason)

/-- The caller has cancelled. -/
def abandon (e : Establisher) (r : Establishment) : Establishment :=
  let r := r.log (.cancelled r.stats.attempts)
  (fail e r).finish (.failed (.cancelled r.stats.attempts))

/-- The last attempt has failed. -/
def giveUp (e : Establisher) (last : Error) (r : Establishment) : Establishment :=
  let r := fail e r
  let r := (r.log (.exhausted last)).log (.statistics r.stats)
  r.finish (.failed (.unreachable r.stats.attempts last))

/-- The daemon has answered a probe. -/
def connect (e : Establisher) (v : Json) (r : Establishment) : Establishment :=
  let status := (Shaped.decode v).toOption.getD (Model.absent DaemonStatus)
  let r := r.log (.connected status.version e.config.endpoint e.config.account)
  let r := { r with stats := { r.stats with success := true } }
  let r := r.enter .connected
  let r := r.log (.statistics r.stats)
  r.finish (.connected { config := e.config, status, process := e.process })

/-- A probe has failed. -/
def miss (e : Establisher) (attempt : UInt32) (err : Error) (r : Establishment) :
    Establishment :=
  let maxAttempts := (BackoffSchedule.ofConfig e.config).maxAttempts
  let r := r.log (.attemptFailed attempt maxAttempts err)
  let r := { r with stats := { r.stats with lastError := some err.message } }
  if maxAttempts ≤ attempt then giveUp e err r else { r with stage := .announcing (attempt + 1) }

/-! ## The three steps of an attempt -/

/-- Says that an attempt is made. -/
def announce (e : Establisher) (attempt : UInt32) (r : Establishment) : Establishment :=
  let maxAttempts := (BackoffSchedule.ofConfig e.config).maxAttempts
  let r := r.enter (.attempting attempt)
  { r.log (.attempting attempt maxAttempts e.config.endpoint) with stage := .waiting attempt }

/-- Waits before the probe and accounts for it. -/
def wait (e : Establisher) (attempt : UInt32) (r : Establishment) : Establishment :=
  let delay := (BackoffSchedule.ofConfig e.config).delayFor attempt.toNat
  let (ended, wire) := r.wire.sleep delay
  let r := { r with wire }
  if ended then
    match r.stats.totalDelay.add? delay with
    | none => r.finish .overflow
    | some total =>
      { r with stats := { r.stats with totalDelay := total, attempts := attempt },
               stage := .asking attempt }
  else abandon e r

/-- Probes the daemon and waits for its answer, unless the caller cancels. -/
def ask (e : Establisher) (s : Surroundings) (attempt : UInt32) (r : Establishment) :
    Establishment :=
  let (request, exchange, wire) := r.wire.send s e.probe.wireName .none
  let (answered, wire) := wire.waitUntil (wire.clock + exchange.delay)
  if answered then
    let r := { r with wire := wire.take exchange.answer }
    match receive request.id exchange.answer with
    | .ok v => connect e v r
    | .error err => miss e attempt err r
  else abandon e { r with wire }

/-- One step. -/
def step (e : Establisher) (s : Surroundings) (r : Establishment) : Establishment :=
  match r.stage with
  | .announcing attempt => announce e attempt r
  | .waiting attempt => wait e attempt r
  | .asking attempt => ask e s attempt r
  | .over _ => r

/-- Steps until it is over, at most the given number. -/
def runFor (e : Establisher) (s : Surroundings) : Nat → Establishment → Establishment
  | 0, r => r
  | n + 1, r =>
    match r.stage with
    | .over _ => r
    | _ => runFor e s n (step e s r)

/-- The beginning of an establishment. -/
def start (e : Establisher) (w : Wire) : Establishment :=
  { wire := w.log (.probing e.config.endpoint (.ofConfig e.config)) }

/-- The whole establishment: three steps for each attempt that may be made. -/
def run (e : Establisher) (s : Surroundings) (w : Wire) : Establishment :=
  runFor e s (3 * (BackoffSchedule.ofConfig e.config).maxAttempts.toNat) (start e w)

end Establishment

/-- Fails before the first attempt, because there is no transport. -/
def Establisher.refuse (e : Establisher) (cause : TransportError) (w : Wire) : Ending × Wire :=
  (.failed (.transport cause), (Establishment.fail e { wire := w }).wire)

/-- Establishes a connection.  The steps of `Establishment.run` suffice, so the last case does
not arise. -/
def Establisher.establish (e : Establisher) (s : Surroundings) (w : Wire) : Ending × Wire :=
  let r := Establishment.run e s w
  match r.stage with
  | .over ending => (ending, r.wire)
  | _ => (.overflow, r.wire)

end DaemonRpc
