import DaemonRpc.Config

/-!
# Linear backoff

Attempt `n` of an establishment is preceded by a wait of `n` steps.  `BackoffSchedule` is
that plan: how many attempts there are and how long the step is.  Its sums and products stop
at the longest span of time.

`RetryStats` is the account of what an establishment really did.
-/

namespace DaemonRpc

/-- How many attempts are made and how much longer the wait becomes before each. -/
structure BackoffSchedule where
  maxAttempts : UInt32
  step : Duration
deriving DecidableEq

namespace BackoffSchedule

/-- A schedule of at least one attempt. -/
def make (maxAttempts : UInt32) (step : Duration) : BackoffSchedule :=
  { maxAttempts := max maxAttempts 1, step }

/-- The schedule of a configuration. -/
def ofConfig (c : ConnectionConfig) : BackoffSchedule :=
  make c.maxAttempts c.backoffStep

/-- The wait before the given attempt, counted from one. -/
def delayFor (s : BackoffSchedule) (attempt : Nat) : Duration := s.step.saturatingMul attempt

/-- `total` and the waits before `count` attempts, of which the next is `attempt`. -/
def addDelays (s : BackoffSchedule) : Nat → Nat → Duration → Duration
  | 0, _, total => total
  | count + 1, attempt, total =>
    s.addDelays count (attempt + 1) (total.saturatingAdd (s.delayFor attempt))

/-- All waits together, up to and including the given attempt. -/
def delayUpTo (s : BackoffSchedule) (attempt : Nat) : Duration := s.addDelays attempt 1 .zero

/-- All waits together. -/
def totalDelay (s : BackoffSchedule) : Duration := s.delayUpTo s.maxAttempts.toNat

/-- The schedule for logs. -/
def debugText (s : BackoffSchedule) : String :=
  s!"BackoffSchedule \x7b max_attempts: {s.maxAttempts}, step: " ++ s.step.debugText ++ " \x7d"

end BackoffSchedule

/-- What an establishment has done so far. -/
structure RetryStats where
  attempts : UInt32 := 0
  totalDelay : Duration := .zero
  success : Bool := false
  lastError : Option String := none
deriving DecidableEq

namespace RetryStats

/-- The account for logs. -/
def debugText (s : RetryStats) : String :=
  s!"RetryStats \x7b attempts: {s.attempts}, total_delay: " ++ s.totalDelay.debugText ++
    ", success: " ++ (if s.success then "true" else "false") ++
    ", last_error: " ++ Text.quoteOption s.lastError ++ " \x7d"

end RetryStats

end DaemonRpc
