import DaemonRpc.CommandLine.Run
import DaemonRpc.Process.Launch
import DaemonRpc.Rpc.RequestId

/-!
# The program

`main` is the command line in rehearsal.  The lines of the standard input stand in for the
daemon: each is the body of one reply, in which `$ID` stands for the id of the request.  A
program is not really launched: it runs until it is asked to exit.

The result goes to the standard output.  The requests and then the failure, if there is one,
go to the standard error.
-/

namespace DaemonRpc.Rehearsal

/-- A line without its end. -/
def withoutEnd (line : String) : String :=
  String.ofList (line.toList.takeWhile fun c => c ≠ '\n' && c ≠ '\r')

/-- The daemon of a rehearsal: its reply to a request is the line in the place of that request. -/
def transport (lines : List String) (s : Sent) : Exchange where
  answer := match lines[s.number]? with
    | some line => .ok (Bytes.utf8 ((withoutEnd line).replace "$ID" s.request.id))
    | none => .error (.io "no reply left")

/-- The system of a rehearsal, of which the state is whether the program has exited. -/
def operatingSystem : OperatingSystem Bool where
  poll _ exited := (if exited then .exited else .running, exited)
  requestExit _ _ := (.ok (), true)
  kill _ _ := (.ok (), true)
  reap _ exited := (.ok (), exited)
  oversleep _ exited := (0, exited)

/-- In a rehearsal every program can be launched. -/
def launchAnswers : LaunchAnswers where
  lookUp := .ok
  makeDirectoryOf _ := .ok ()
  makeFile _ := .ok ()
  start _ _ := .ok 1000

/-- The circumstances of a rehearsal.  The ids follow the given one, and there are no tables of
international names. -/
def circumstances (environment : List (String × String)) (firstId : Nat) (lines : List String) :
    CommandLine.Circumstances where
  environment name := environment.lookup name
  international := .empty
  launch c := do
    let p ← c.launch launchAnswers 0 false
    return p.handle operatingSystem shutdownGrace
  transport _ :=
    .ok { newId := fun n => RequestId.ofNat (firstId + n), transport := transport lines }

/-- The requests among some events. -/
def requests (events : List Event) : List String :=
  events.filterMap fun
    | .sent r _ => some r.text
    | _ => none

end DaemonRpc.Rehearsal

open DaemonRpc

/-- What the environment has of the settings. -/
def readEnvironment : IO (List (String × String)) := do
  let names := CommandLine.Setting.longNames.filterMap (·.2.environmentName?)
  names.filterMapM fun name => do return (← IO.getEnv name).map fun value => (name, value)

/-- One run of the command line in rehearsal. -/
def main (words : List String) : IO UInt32 := do
  let environment ← readEnvironment
  let firstId := (← IO.getRandomBytes 16).foldl (fun n b => 256 * n + b.toNat) 0
  let lines ← (← IO.getStdin).lines
  let outcome := CommandLine.run (Rehearsal.circumstances environment firstId lines.toList) words
  for request in Rehearsal.requests outcome.events do
    IO.eprintln request
  match outcome.failure with
  | some f => IO.eprintln f.text
  | none => pure ()
  IO.print outcome.stdout
  return outcome.exit.toUInt32
