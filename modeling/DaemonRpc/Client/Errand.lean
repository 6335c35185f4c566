import DaemonRpc.Client.Session

/-!
# Errands

An `Errand` is what can be asked of a client at once with others: a call, a look at the client
itself, or a group of errands.

Errands that are under way at once take turns in their order, and each goes in its turn as
far as it can:

* a call is sent, and takes its answer if that is there;
* a look is taken;
* a group gives each of its members a turn, and is over when all of them are.

They have a turn at first and whenever an answer comes.  A process that is to be reaped is
reaped after the turn.  Whatever comes to its end says so in the journal.

`Errand.runAll` goes on until all are over.
-/

namespace DaemonRpc

/-- What is asked of a client; a look reads an `α`. -/
inductive Errand (α : Type) where
  | call (name : String) (task : Task)
  | look (name : String) (read : Client → α) (seen : Option α)
  | group (name : String) (members : List (Errand α)) (ended : Bool)

namespace Task

/-- When the answer to a call comes that has been sent. -/
def due? (t : Task) : Option Nat :=
  match t.progress with
  | .awaiting _ due _ => some due
  | _ => none

/-- A stop that was acknowledged and has a process to reap. -/
def isReaping (t : Task) : Bool :=
  match t.progress with
  | .reaping _ _ => true
  | _ => false

end Task

namespace Session

/-- A turn of a call: it is sent if it is ready, and takes its answer if that is there. -/
def turn (env : Surroundings) (t : Task) (s : Session) : Task × Session :=
  let (t, s) :=
    match t.progress with
    | .ready => step env t s
    | _ => (t, s)
  if t.due?.any (· ≤ s.wire.clock) then step env t s else (t, s)

/-- What follows a turn: a process is reaped. -/
def afterTurn (env : Surroundings) (t : Task) (s : Session) : Task × Session :=
  if t.isReaping then step env t s else (t, s)

/-- Says that something has come to its end. -/
def noteEnd (name : String) (s : Session) : Session := s.onWire (·.note (.finished name))

end Session

namespace Errand

variable {α : Type}

/-- An errand that has come to its end. -/
def isOver : Errand α → Bool
  | call _ task => task.isDone
  | look _ _ seen => seen.isSome
  | group _ _ ended => ended

mutual

/-- The calls of an errand. -/
def tasks : Errand α → List Task
  | call _ task => [task]
  | look _ _ _ => []
  | group _ members _ => tasksOf members

/-- The calls of several errands. -/
def tasksOf : List (Errand α) → List Task
  | [] => []
  | e :: es => e.tasks ++ tasksOf es

end

mutual

/-- Goes through an errand, with the given step for its calls. -/
def visit (step : Task → Session → Task × Session) : Errand α → Session → Errand α × Session
  | call name task, s =>
    if task.isDone then (call name task, s)
    else
      let (task, s) := step task s
      (call name task, if task.isDone then s.noteEnd name else s)
  | look name read none, s => (look name read (some (read s.client)), s.noteEnd name)
  | look name read (some a), s => (look name read (some a), s)
  | group name members ended, s =>
    let (members, s) := visitAll step members s
    if ended || !members.all isOver then (group name members ended, s)
    else (group name members true, s.noteEnd name)

/-- Goes through several errands in their order. -/
def visitAll (step : Task → Session → Task × Session) :
    List (Errand α) → Session → List (Errand α) × Session
  | [], s => ([], s)
  | e :: es, s =>
    let (e, s) := e.visit step s
    let (es, s) := visitAll step es s
    (e :: es, s)

end

/-- Goes on with errands that have had their first turn, at most the given number of times. -/
def settleAll (env : Surroundings) :
    Nat → List (Errand α) → Session → List (Errand α) × Session
  | 0, es, s => (es, s)
  | n + 1, es, s =>
    if (tasksOf es).any Task.isReaping then
      let (es, s) := visitAll (Session.afterTurn env) es s
      settleAll env n es s
    else
      match ((tasksOf es).filterMap Task.due?).min? with
      | none => (es, s)
      | some time =>
        let (es, s) := visitAll (Session.turn env) es (s.onWire (·.advance time))
        settleAll env n es s

/-- Runs errands at once.  After the first turn each call comes to its end with its answer, or
by one more step if there is a process to reap, so twice their number is enough. -/
def runAll (env : Surroundings) (es : List (Errand α)) (s : Session) :
    List (Errand α) × Session :=
  let (es, s) := visitAll (Session.turn env) es s
  settleAll env (2 * (tasksOf es).length) es s

end Errand

end DaemonRpc
