/-!
# Waiting for a token

A token is a flag and a list of waiters that are told when it is raised; its clones share both.
Who waits and who cancels do not exclude each other, so their steps can fall in any order.

* A waiter registers, then looks at the flag, and returns if it is up.  If it is down the waiter
  blocks, unless it has been notified meanwhile.  A waiter that is notified starts again.
* A canceller raises the flag and then notifies every waiter that is registered by then.

`Signal.step` is one of these steps, and `Signal.Reachable` are the states that some order
of steps leads to.
-/

namespace DaemonRpc

/-- Where a waiter is. -/
inductive WaiterPhase where
  | outside
  | registered
  /-- It has seen the flag down and is about to block. -/
  | checked
  | blocked
  | returned
deriving DecidableEq

/-- A waiter: where it is, and whether it has been notified since it registered. -/
structure Waiter where
  phase : WaiterPhase := .outside
  notified : Bool := false
deriving DecidableEq

/-- Where a canceller is. -/
inductive CancellerPhase where
  | idle
  | raised
  | finished
deriving DecidableEq

/-- A token with those who wait for it and those who cancel it. -/
structure Signal where
  flag : Bool := false
  waiters : List Waiter
  cancellers : List CancellerPhase

namespace Signal

/-- Whose step it is. -/
inductive Actor where
  | waiter (i : Nat)
  | canceller (i : Nat)
deriving DecidableEq

/-- A waiter that is on the list of the token. -/
def listening (w : Waiter) : Bool :=
  w.phase = .registered || w.phase = .checked || w.phase = .blocked

/-- Tells a waiter, if it is on the list. -/
def notify (w : Waiter) : Waiter := if listening w then { w with notified := true } else w

/-- The step of a waiter; none when it has to wait or is back. -/
def waiterStep (flag : Bool) (w : Waiter) : Option Waiter :=
  match w.phase with
  | .outside => some { phase := .registered, notified := false }
  | .registered => some { w with phase := if flag then .returned else .checked }
  | .checked =>
    some (
      if w.notified then { phase := .outside, notified := false }
      else { w with phase := .blocked })
  | .blocked => if w.notified then some { phase := .outside, notified := false } else none
  | .returned => none

/-- One step; none when the actor cannot make one. -/
def step (s : Signal) : Actor → Option Signal
  | .waiter i => do
    let w ← s.waiters[i]?
    let w ← waiterStep s.flag w
    return { s with waiters := s.waiters.set i w }
  | .canceller i =>
    match s.cancellers[i]? with
    | some .idle => some { s with flag := true, cancellers := s.cancellers.set i .raised }
    | some .raised =>
      some { s with waiters := s.waiters.map notify, cancellers := s.cancellers.set i .finished }
    | _ => none

/-- Several steps, one after the other; none when one of them cannot be made. -/
def follow (s : Signal) (actors : List Actor) : Option Signal := actors.foldlM step s

/-- Nobody has done anything yet. -/
def initial (waiters cancellers : Nat) : Signal where
  waiters := List.replicate waiters {}
  cancellers := List.replicate cancellers .idle

/-- The states that some order of steps leads to. -/
inductive Reachable (waiters cancellers : Nat) : Signal → Prop where
  | initial : Reachable waiters cancellers (initial waiters cancellers)
  | step {s s' : Signal} (actor : Actor) (before : Reachable waiters cancellers s)
      (made : s.step actor = some s') : Reachable waiters cancellers s'

end Signal

end DaemonRpc
