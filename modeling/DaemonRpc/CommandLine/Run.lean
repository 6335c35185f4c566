import DaemonRpc.Client.Session
import DaemonRpc.CommandLine.Arguments
import DaemonRpc.Process.LaunchConfig

/-!
# One run of the command line

A run connects to a daemon, which it may launch first, invokes one method, and prints the
result.  A daemon that it launched is stopped in the end.

`run` is a run in given `Circumstances`, and `Outcome` is what is seen of it: the exit code,
what is printed, the failure in words, and what was sent.
-/

namespace DaemonRpc.CommandLine

/-! ## Parameters and results -/

/-- A parameter from a word: the value that the word is the text of, or else the word. -/
def readParam (word : String) : Json := (Json.ofText? word).getD (.string word)

/-- The parameters from the words behind the method. -/
def readParams (words : List String) : Params :=
  if words.isEmpty then .none else .positional (words.map readParam)

/-- What is printed for a result. -/
def printed (result : Json) : String := result.indentedText ++ "\n"

/-! ## Failures in words -/

/-- A failure: what failed, and the causes behind it, the nearest first. -/
structure Failure where
  message : String
  causes : List String := []
deriving DecidableEq

namespace Failure

/-- An error as a failure. -/
def ofError (e : Error) : Failure := { message := e.message, causes := e.sources }

/-- An error of a call as the cause of the failure of its method. -/
def ofCall (method : String) (e : Error) : Failure :=
  { message := method ++ " failed", causes := e.message :: e.sources }

/-- The lines of a cause, each but the first indented. -/
def indent (first further cause : String) : String :=
  first ++ ("\n" ++ further).intercalate (cause.splitOn "\n")

/-- The number of a cause, to the right in five columns. -/
def numbered (n : Nat) : String :=
  let digits := toString n
  String.ofList (List.replicate (5 - digits.length) ' ') ++ digits ++ ": "

/-- The causes in words: one is only indented, several are numbered. -/
def causesText : List String → List String
  | [] => []
  | [cause] => [indent "    " "    " cause]
  | causes => causes.zipIdx.map fun (cause, n) => indent (numbered n) "       " cause

/-- The failure in words. -/
def text (f : Failure) : String :=
  let causes := causesText f.causes
  "Error: " ++ f.message ++
    if causes.isEmpty then "" else "\n\nCaused by:\n" ++ "\n".intercalate causes

end Failure

/-! ## The run -/

/-- What a run meets with. -/
structure Circumstances where
  environment : String → Option String
  /-- What international hosts mean. -/
  international : DomainMapping
  /-- Launches a daemon and hands its process over. -/
  launch : LaunchConfig → Except Error ProcessHandle
  /-- The way to the daemon of a configuration. -/
  transport : ConnectionConfig → Except TransportError Surroundings

/-- What is seen of a run. -/
structure Outcome where
  exit : Nat
  stdout : String := ""
  failure : Option Failure := none
  events : List Event := []

/-- The exit code of a command line that is not understood. -/
def usageExit : Nat := 2

/-- The exit code of a failure. -/
def failureExit : Nat := 1

/-- The exit code of a run that breaks off, because its delays cannot be added. -/
def brokenExit : Nat := 101

/-- A run that fails. -/
def Outcome.fail (f : Failure) (wire : Wire) (stdout : String) : Outcome where
  exit := failureExit
  stdout := stdout
  failure := some f
  events := wire.drain.1

/-- Stops the daemon, if the client owns its process. -/
def conclude (env : Surroundings) (stdout : String) (s : Session) : Outcome :=
  if s.client.process.isSome then
    let (t, s) := s.perform env .stop
    match t.written? with
    | some (.error e) => .fail (.ofError e) s.drop.wire stdout
    | _ => { exit := 0, stdout, events := s.drop.wire.drain.1 }
  else { exit := 0, stdout, events := s.drop.wire.drain.1 }

/-- Invokes the method and prints its result. -/
def invoke (env : Surroundings) (a : Arguments) (s : Session) : Outcome :=
  let (t, s) := s.perform env (.byName a.method (readParams a.params))
  match t.written? with
  | some (.ok result) => conclude env (printed result) s
  | some (.error e) => .fail (.ofCall a.method e) s.drop.wire ""
  | none => .fail { message := a.method ++ " failed" } s.drop.wire ""

/-- Connects with the given process and goes on. -/
def connect (c : Circumstances) (a : Arguments) (config : ConnectionConfig)
    (process : Option ProcessHandle) : Outcome :=
  let e : Establisher := { config, process }
  match c.transport config with
  | .error cause =>
    let (_, wire) := e.refuse cause {}
    .fail (.ofError (.transport cause)) wire ""
  | .ok env =>
    match e.establish env {} with
    | (.connected client, wire) => invoke env a { client, wire }
    | (.failed err, wire) => .fail (.ofError err) wire ""
    | (.overflow, wire) => { exit := brokenExit, events := wire.drain.1 }

/-- How the daemon of a command line is launched. -/
def Arguments.launchConfig (a : Arguments) (binary : String) : LaunchConfig where
  binary := binary
  account := a.user
  secret := a.password
  testnet := a.testnet

/-- A run whose arguments are understood. -/
def execute (c : Circumstances) (a : Arguments) : Outcome :=
  match a.connection c.international with
  | .error e => .fail (.ofError e) {} ""
  | .ok config =>
    match a.spawn with
    | none => connect c a config none
    | some binary =>
      match c.launch (a.launchConfig binary) with
      | .error e => .fail (.ofError e) {} ""
      | .ok process => connect c a config (some process)

/-- A run with the given words. -/
def run (c : Circumstances) (words : List String) : Outcome :=
  match Arguments.ofWords c.environment words with
  | .ok a => execute c a
  | .error .helpWanted => { exit := 0 }
  | .error _ => { exit := usageExit }

end DaemonRpc.CommandLine
