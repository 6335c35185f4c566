import DaemonRpc.Time.Timer

/-!
# Cancellation tokens

Who starts something long may cancel it through a token.  A token can be cloned, and a
cancellation of any token of a family reaches the whole family, for ever.

`Tokens` is a growing list of tokens on one clock, with the families that have been cancelled
and the cancellations that are to come.

Whoever holds the tokens goes on first: a cancellation that is to come happens only while he
waits.  So `Tokens.wait` has these rules.

* What is due already is not waited for.
* A cancellation whose time is past happens as soon as somebody waits.
* When a wait ends at the time of a cancellation, the end comes first.
-/

namespace DaemonRpc

/-- A cancellation that is to come: whom it reaches and when. -/
structure Cancellation where
  family : Nat
  time : Nat
deriving DecidableEq

/-- Tokens, in the order of their creation, and their cancellations. -/
structure Tokens where
  /-- The family of each token: the number of its first member. -/
  families : List Nat := [0]
  clock : Nat := 0
  /-- The families that have been cancelled. -/
  cancelled : List Nat := []
  /-- The cancellations that are to come. -/
  pending : List Cancellation := []

namespace Tokens

/-- The family of a token. -/
def familyOf (ts : Tokens) (token : Nat) : Nat := ts.families.getD token token

/-- A token that has been cancelled. -/
def isCancelled (ts : Tokens) (token : Nat) : Bool := ts.cancelled.contains (ts.familyOf token)

/-- For each token whether it has been cancelled. -/
def flags (ts : Tokens) : List Bool := ts.families.map ts.cancelled.contains

/-- Adds a token of a family of its own. -/
def create (ts : Tokens) : Tokens := { ts with families := ts.families ++ [ts.families.length] }

/-- Adds a token of the family of another. -/
def clone (ts : Tokens) (token : Nat) : Tokens :=
  { ts with families := ts.families ++ [ts.familyOf token] }

/-- Cancels a token now. -/
def cancel (ts : Tokens) (token : Nat) : Tokens :=
  { ts with cancelled := ts.familyOf token :: ts.cancelled }

/-- Cancels a token after a span. -/
def cancelIn (ts : Tokens) (token : Nat) (span : Duration) : Tokens :=
  { ts with pending :=
      ts.pending ++ [{ family := ts.familyOf token, time := ts.clock + Timer.millis span }] }

/-! ## Time -/

/-- When the first of the coming cancellations of a family is to happen. -/
def nextCancel (ts : Tokens) (family : Nat) : Option Nat :=
  ((ts.pending.filter (·.family = family)).map Cancellation.time).min?

/-- Some of the coming cancellations happen. -/
def release (ts : Tokens) (happens : Cancellation → Bool) : Tokens :=
  let (now, later) := ts.pending.partition happens
  { ts with cancelled := now.map Cancellation.family ++ ts.cancelled, pending := later }

/-- Goes on up to a time, without what happens at it. -/
def upTo (ts : Tokens) (time : Nat) : Tokens :=
  { ts with clock := max ts.clock time }.release (·.time < time)

/-- Goes on through a time, with what happens at it. -/
def through (ts : Tokens) (time : Nat) : Tokens :=
  let now := max ts.clock time
  { ts with clock := now }.release (·.time ≤ now)

/-- Waits up to a time, or through the first cancellation of a family before it; says whether
there was none. -/
def wait (ts : Tokens) (family due : Nat) : Bool × Tokens :=
  if due ≤ ts.clock then (true, ts)
  else
    match ts.nextCancel family with
    | none => (true, ts.upTo due)
    | some t => if t < due then (false, ts.through t) else (true, ts.upTo due)

/-! ## What can be done with tokens -/

/-- A cancellation that is to come. -/
structure Later where
  token : Nat
  after : Duration

/-- What is done with tokens. -/
inductive Act where
  | create
  | clone (token : Nat)
  | cancel (token : Nat)
  | check (token : Nat)
  /-- Sleeps unless the token is cancelled; meanwhile another may be cancelled. -/
  | sleep (token : Nat) (span : Duration) (meanwhile : Option Later)
  /-- Waiters wait for the token, each as long as its patience, while another is cancelled. -/
  | gather (token : Nat) (patiences : List Duration) (meanwhile : Later)

/-- What comes of it. -/
inductive Outcome where
  | done
  /-- The token is cancelled. -/
  | refused
  | slept (millis : Nat)
  /-- The token was cancelled before the end of the sleep. -/
  | interrupted (millis : Nat)
  /-- For each waiter after which time it was woken, if it was. -/
  | woken (millis : List (Option Nat))
deriving DecidableEq

/-- What a refusal says. -/
def refusalMessage : String := "Operation was cancelled"

/-- Sleeps unless a token is cancelled. -/
def sleep (ts : Tokens) (token : Nat) (span : Duration) (meanwhile : Option Later) :
    Outcome × Tokens :=
  let start := ts.clock
  let ts := match meanwhile with
    | some l => ts.cancelIn l.token l.after
    | none => ts
  if ts.isCancelled token then (.interrupted 0, ts)
  else
    let (ended, ts) := ts.wait (ts.familyOf token) (start + Timer.millis span)
    (if ended then .slept (ts.clock - start) else .interrupted (ts.clock - start), ts)

/-- When those are woken who begin to wait for a token now, if another is cancelled meanwhile. -/
def wakeTime? (ts : Tokens) (token : Nat) (meanwhile : Later) : Option Nat :=
  if ts.isCancelled token then some ts.clock
  else (ts.cancelIn meanwhile.token meanwhile.after).nextCancel (ts.familyOf token)

/-- After which time a waiter is woken that begins to wait now, unless it loses its patience before.
A cancellation at the end of the patience still wakes. -/
def wokenAfter (ts : Tokens) (token : Nat) (meanwhile : Later) (patience : Duration) : Option Nat :=
  ((ts.wakeTime? token meanwhile).filter (· ≤ ts.clock + Timer.millis patience)).map (· - ts.clock)

/-- Waiters wait for a token, and a token is cancelled meanwhile.  It is over when that is done and
every waiter was woken or lost its patience. -/
def gather (ts : Tokens) (token : Nat) (patiences : List Duration) (meanwhile : Later) :
    Outcome × Tokens :=
  let called := ts.clock + Timer.millis meanwhile.after
  let woken := patiences.map (ts.wokenAfter token meanwhile)
  let spans := List.zipWith (fun w p => w.getD (Timer.millis p)) woken patiences
  let left := ts.clock + spans.foldl max 0
  let after := (ts.upTo called).cancel meanwhile.token
  (.woken woken, if left < called then after else after.through left)

/-- Does something with tokens. -/
def perform (ts : Tokens) : Act → Outcome × Tokens
  | .create => (.done, ts.create)
  | .clone token => (.done, ts.clone token)
  | .cancel token => (.done, ts.cancel token)
  | .check token => (if ts.isCancelled token then .refused else .done, ts)
  | .sleep token span meanwhile => ts.sleep token span meanwhile
  | .gather token patiences meanwhile => ts.gather token patiences meanwhile

end Tokens

end DaemonRpc
