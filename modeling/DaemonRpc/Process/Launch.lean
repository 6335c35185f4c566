import DaemonRpc.Error
import DaemonRpc.Process.LaunchConfig
import DaemonRpc.Process.Supervision

/-!
# Launching a daemon

To launch a daemon its program is looked up, its log file is made if there is to be one, and
the program is started.  `LaunchAnswers` are the system's answers on the way; the first
refusal is the reason why the launch fails.
-/

namespace DaemonRpc

/-- What the system answers to the steps of a launch. -/
structure LaunchAnswers where
  /-- The program behind a path. -/
  lookUp : String → Except OsError String
  makeDirectoryOf : String → Except OsError Unit
  makeFile : String → Except OsError Unit
  /-- Starts a program and tells its number. -/
  start : String → List String → Except OsError Nat

/-- The files that a launch makes before it starts the program. -/
def LaunchConfig.makeLog (c : LaunchConfig) (system : LaunchAnswers) : Except OsError Unit :=
  match c.logFile with
  | none => .ok ()
  | some path => do
    system.makeDirectoryOf path
    system.makeFile path

/-- Looks a program up, makes its log and starts it; its path and its number. -/
def LaunchConfig.spawn (c : LaunchConfig) (system : LaunchAnswers) :
    Except OsError (String × Nat) := do
  let binary ← system.lookUp c.binary
  c.makeLog system
  let pid ← system.start binary c.args
  return (binary, pid)

/-- Launches a daemon at a time of the clock; the system goes on from the given state. -/
def LaunchConfig.launch {σ : Type} (c : LaunchConfig) (system : LaunchAnswers) (time : Nat)
    (state : σ) : Except Error (Supervised σ) :=
  match c.spawn system with
  | .ok (binary, pid) => .ok { pid, binary, grace := c.grace, clock := time, system := state }
  | .error e => .error (.launchFailed c.binary e)

end DaemonRpc
