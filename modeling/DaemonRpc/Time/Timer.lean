import DaemonRpc.Time.Duration

/-!
# The timer

The timer counts milliseconds.  A wait ends at the first of them at which its whole span is
over, but no wait is longer than thirty years.
-/

namespace DaemonRpc.Timer

/-- The longest wait, in milliseconds: thirty years. -/
def longest : Nat := 30 * 365 * 24 * 60 * 60 * 1000

/-- How long the timer waits for a number of milliseconds. -/
def clip (millis : Nat) : Nat := min millis longest

/-- How many milliseconds the timer waits for a span. -/
def millis (d : Duration) : Nat := clip d.ceilMillis

end DaemonRpc.Timer
