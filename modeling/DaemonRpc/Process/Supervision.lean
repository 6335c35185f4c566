import DaemonRpc.Process.Handle
import DaemonRpc.Process.OsError
import DaemonRpc.Time.Duration

/-!
# Watching over a process

Who launched a process asks the operating system whether it has exited, asks it to exit, and
kills it when it does not.  `OperatingSystem` is how the system answers: every answer may
depend on the time and on all that happened before, and each may be a failure.

* `Supervised.poll` asks once.  From the first answer that the process has exited, nothing
  more is asked or done.
* `Supervised.waitForExit` polls until the process has exited or a deadline is past.
* `Supervised.terminate` asks the process to exit, waits, and kills it.

Time is counted in nanoseconds and goes on only while `waitForExit` sleeps.  A deadline that
the clock cannot reach is an overflow.
-/

namespace DaemonRpc

/-- What the system says of a process. -/
inductive PollAnswer where
  | exited
  | running
  | failed (e : OsError)
deriving DecidableEq

/-- How the system answers, at a time and in a state of its own. -/
structure OperatingSystem (σ : Type) where
  poll : Nat → σ → PollAnswer × σ
  /-- Asks the process to exit. -/
  requestExit : Nat → σ → Except OsError Unit × σ
  kill : Nat → σ → Except OsError Unit × σ
  /-- Waits for the end of a process that was killed. -/
  reap : Nat → σ → Except OsError Unit × σ
  /-- How much longer than asked a sleep takes. -/
  oversleep : Nat → σ → Nat × σ

/-- What was done about a process. -/
inductive SupervisionStep where
  | polled (answer : PollAnswer)
  | exitRequested (answer : Except OsError Unit)
  | killed (answer : Except OsError Unit)
  | reaped (answer : Except OsError Unit)
  | slept (nanos : Nat)

/-- A process that is watched over, in a system of state `σ`. -/
structure Supervised (σ : Type) where
  pid : Nat
  binary : String
  grace : Duration
  /-- The process was seen to have exited. -/
  finished : Bool := false
  clock : Nat
  system : σ
  /-- What was done, the latest first. -/
  steps : List SupervisionStep := []

/-- The end of what was done: an answer, or a deadline that the clock cannot reach. -/
inductive Finish (α : Type) where
  | done (a : α)
  | overflow
deriving DecidableEq

namespace Supervised

variable {σ : Type}

/-- The number of the process, while it is not known to have exited. -/
def id? (p : Supervised σ) : Option Nat := if p.finished then none else some p.pid

/-- Adds a step. -/
def note (p : Supervised σ) (step : SupervisionStep) : Supervised σ :=
  { p with steps := step :: p.steps }

/-- Asks whether the process has exited. -/
def poll (os : OperatingSystem σ) (p : Supervised σ) : Bool × Supervised σ :=
  let (answer, system) := os.poll p.clock p.system
  let p := { p with system }.note (.polled answer)
  match answer with
  | .exited => (true, { p with finished := true })
  | .running | .failed _ => (false, p)

/-- The process has exited: it is known already, or the system says so now. -/
def hasExited (os : OperatingSystem σ) (p : Supervised σ) : Bool × Supervised σ :=
  if p.finished then (true, p) else p.poll os

/-- The last number of a process that a request can be sent to. -/
def lastPid : Nat := 0x7fff_ffff

/-- Asks the process to exit; a refusal changes nothing.  A process whose number is out of range is
not asked. -/
def requestExit (os : OperatingSystem σ) (p : Supervised σ) : Supervised σ :=
  if p.pid ≤ lastPid then
    let (answer, system) := os.requestExit p.clock p.system
    { p with system }.note (.exitRequested answer)
  else p

/-- Kills the process and waits for its end. -/
def forceKill (os : OperatingSystem σ) (p : Supervised σ) : Supervised σ :=
  let (answer, system) := os.kill p.clock p.system
  let p := { p with system }.note (.killed answer)
  let (answer, system) := os.reap p.clock p.system
  let p := { p with system }.note (.reaped answer)
  match answer with
  | .ok () => { p with finished := true }
  | .error _ => p

/-! ## Waiting -/

/-- The time between two polls, in nanoseconds. -/
def pollInterval : Nat := 100_000_000

/-- Sleeps at least the given time. -/
def sleep (os : OperatingSystem σ) (p : Supervised σ) (nanos : Nat) : Supervised σ :=
  let (extra, system) := os.oversleep p.clock p.system
  { p with system, clock := p.clock + nanos + extra }.note (.slept nanos)

theorem clock_poll (os : OperatingSystem σ) (p : Supervised σ) :
    (p.poll os).2.clock = p.clock := by
  simp only [poll, note]
  split <;> rfl

theorem clock_hasExited (os : OperatingSystem σ) (p : Supervised σ) :
    (p.hasExited os).2.clock = p.clock := by
  unfold hasExited
  split
  · rfl
  · exact clock_poll os p

theorem lt_clock_sleep (os : OperatingSystem σ) (p : Supervised σ) {nanos : Nat}
    (positive : 0 < nanos) : p.clock < (p.sleep os nanos).clock := by
  simp only [sleep, note]
  omega

/-- Polls until the process has exited or a poll at or after the deadline has not seen it. -/
def waitUntil (os : OperatingSystem σ) (deadline : Nat) (p : Supervised σ) :
    Bool × Supervised σ :=
  match _seen : p.hasExited os with
  | (true, p') => (true, p')
  | (false, p') =>
    if p'.clock < deadline then
      waitUntil os deadline (p'.sleep os (min pollInterval (deadline - p'.clock)))
    else (false, p')
termination_by deadline - p.clock
decreasing_by
  have same : p'.clock = p.clock := by rw [← clock_hasExited os p, _seen]
  have positive : 0 < min pollInterval (deadline - p'.clock) := by
    unfold pollInterval
    omega
  have later := lt_clock_sleep os p' positive
  omega

/-- The number of seconds that the clock cannot reach. -/
def clockSeconds : Nat := 0x8000_0000_0000_0000

/-- The deadline that lies a span ahead, if the clock can reach it. -/
def deadline? (p : Supervised σ) (timeout : Duration) : Option Nat :=
  let time := p.clock + timeout.toNanos
  if time < clockSeconds * Duration.nanosPerSec then some time else none

/-- Waits up to a deadline, if there is one that the clock can reach. -/
def waitBy (os : OperatingSystem σ) (p : Supervised σ) : Option Nat → Finish Bool × Supervised σ
  | none => (.overflow, p)
  | some deadline =>
    let (exited, p) := p.waitUntil os deadline
    (.done exited, p)

/-- Gives the process time to exit; says whether it did. -/
def waitForExit (os : OperatingSystem σ) (p : Supervised σ) (timeout : Duration) :
    Finish Bool × Supervised σ :=
  p.waitBy os (p.deadline? timeout)

/-- What is left to do when the process was asked to exit and waited for: it is killed if it has
not exited. -/
def afterGrace (os : OperatingSystem σ) : Finish Bool × Supervised σ → Finish Unit × Supervised σ
  | (.overflow, p) => (.overflow, p)
  | (.done true, p) => (.done (), p)
  | (.done false, p) => (.done (), p.forceKill os)

/-- Ends the process: asks it to exit, and kills it after the grace. -/
def terminate (os : OperatingSystem σ) (p : Supervised σ) : Finish Unit × Supervised σ :=
  let (exited, p) := p.hasExited os
  if exited then (.done (), p)
  else afterGrace os ((p.requestExit os).waitForExit os p.grace)

/-- Lets go of the process, which is ended first. -/
def drop (os : OperatingSystem σ) (p : Supervised σ) : Finish Unit × Supervised σ := p.terminate os

/-! ## Handing over -/

/-- What is said of a task that broke off. -/
def brokeOff : String := "task panicked"

/-- The end of a task, for its caller. -/
def report {α : Type} : Finish α → Except String α
  | .done a => .ok a
  | .overflow => .error brokeOff

/-- How the process answers who takes it over: at a stop, and at a termination. -/
def handle (os : OperatingSystem σ) (stopGrace : Duration) (p : Supervised σ) : ProcessHandle :=
  let (exited, p') := p.waitForExit os stopGrace
  { exits := report exited
    terminates := report ((if exited = .done false then p' else p).terminate os).1 }

end Supervised

end DaemonRpc
