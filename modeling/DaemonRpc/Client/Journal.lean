import DaemonRpc.Backoff
import DaemonRpc.Process.Handle
import DaemonRpc.Rpc.Request

/-!
# What a client does, in order

An `Event` is one thing that can be seen from outside: a request that is sent, a call on the
process that was handed over, or a line of the log.  Everything a client does is a list of
events.

`LogEntry.level` and `LogEntry.message` are the texts of the log.
-/

namespace DaemonRpc

/-- How far an establishment is. -/
inductive EstablishState where
  | idle
  /-- Before or in the probe of the given number, counted from one. -/
  | attempting (attempt : UInt32)
  | connected
  | failed
deriving DecidableEq, Inhabited

namespace EstablishState

/-- The two states that are not left. -/
def isTerminal : EstablishState → Bool
  | connected | failed => true
  | idle | attempting _ => false

/-- The state for logs. -/
def debugText : EstablishState → String
  | idle => "Idle"
  | attempting n => s!"Attempting \x7b attempt: {n} \x7d"
  | connected => "Connected"
  | failed => "Failed"

end EstablishState

/-- How important a line of the log is. -/
inductive LogLevel where
  | debug
  | info
  | warn
  | error
deriving DecidableEq

/-- The level as it stands in front of a line. -/
def LogLevel.text : LogLevel → String
  | debug => "DEBUG"
  | info => "INFO"
  | warn => "WARN"
  | error => "ERROR"

/-- A line of the log. -/
inductive LogEntry where
  | probing (endpoint : Endpoint) (schedule : BackoffSchedule)
  | entering (previous next : EstablishState)
  | attempting (attempt maxAttempts : UInt32) (endpoint : Endpoint)
  | request (body : Bytes)
  | response (body : Bytes)
  | attemptFailed (attempt maxAttempts : UInt32) (e : Error)
  | connected (version : Int64) (endpoint : Endpoint) (account : String)
  | statistics (stats : RetryStats)
  | cancelled (attempts : UInt32)
  | exhausted (last : Error)
  | terminationBrokeOff (reason : String)
  | stopping (message : String)
  | stillRunning
  | reapingBrokeOff (reason : String)
  | dropped

namespace LogEntry

/-- How important a line is. -/
def level : LogEntry → LogLevel
  | probing _ _ | entering _ _ | request _ | response _ | statistics _ | dropped => .debug
  | attempting _ _ _ | connected _ _ _ | stopping _ => .info
  | attemptFailed _ _ _ | cancelled _ | stillRunning | reapingBrokeOff _ => .warn
  | exhausted _ | terminationBrokeOff _ => .error

/-- The words of a line. -/
def message : LogEntry → String
  | probing endpoint schedule =>
    s!"Probing {endpoint.text} with up to {schedule.maxAttempts} attempt(s), " ++
      schedule.totalDelay.debugText ++ " of backoff"
  | entering previous next => s!"Establisher {previous.debugText} -> {next.debugText}"
  | attempting attempt maxAttempts endpoint =>
    s!"Attempt {attempt} of {maxAttempts} to ping {endpoint.text}"
  | request body => "request: " ++ Bytes.lossy body
  | response body => "response: " ++ Bytes.lossy body
  | attemptFailed attempt maxAttempts e =>
    s!"Attempt {attempt}/{maxAttempts} failed: " ++ e.message
  | connected version endpoint account =>
    s!"connected bitcoind {version.toInt} on {endpoint.text} as " ++ account
  | statistics stats => "Establishment stats: " ++ stats.debugText
  | cancelled attempts => s!"Establishment cancelled after {attempts} attempt(s)"
  | exhausted last => last.message
  | terminationBrokeOff reason => "Failed to terminate daemon process: " ++ reason
  | stopping message => message
  | stillRunning => "Daemon did not exit after stop, terminating"
  | reapingBrokeOff reason => "Failed to reap daemon process: " ++ reason
  | dropped => "Client dropped, terminating owned daemon"

/-- The whole line. -/
def text (l : LogEntry) : String := l.level.text ++ " " ++ l.message

end LogEntry

/-- One thing that a client does. -/
inductive Event where
  /-- A request goes out, at a time in milliseconds. -/
  | sent (request : Request) (time : Nat)
  | process (call : ProcessCall)
  /-- The process is let go. -/
  | released
  | log (entry : LogEntry)
  /-- One of several things that are done at once comes to its end. -/
  | finished (name : String)

end DaemonRpc
