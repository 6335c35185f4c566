import DaemonRpc.Time.Duration

/-!
# A process that is handed over

Who launches a daemon may hand its process over.  Two things can be done with it: it can be
given time to exit, and it can be terminated.  A `ProcessHandle` says how the process
answers; either may break off, with a reason, instead of coming back.
-/

namespace DaemonRpc

/-- What is done with a process. -/
inductive ProcessCall where
  | terminate
  | waitForExit (timeout : Duration)
deriving DecidableEq

/-- How a process answers: whether it exits when it is given time, and whether its
termination comes back. -/
structure ProcessHandle where
  exits : Except String Bool
  terminates : Except String Unit

end DaemonRpc
