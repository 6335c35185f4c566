import DaemonRpc.Endpoint
import DaemonRpc.Error
import DaemonRpc.Time.Duration

/-!
# Connection settings

`ConnectionConfig` says where the daemon is and how patiently to connect to it.  Values
below their minimum are raised to it, and the step of the backoff is the timeout until it is
set.  `debugText` shows a configuration without the secret.

The constants that describe the daemon and the protocol stand at the front.
-/

namespace DaemonRpc

/-! ## Constants -/

/-- Where a local daemon listens. -/
def defaultHost : String := "127.0.0.1"

/-- The port of the main network. -/
def mainnetPort : UInt16 := 8332

/-- The port of the test network. -/
def testnetPort : UInt16 := 18332

/-- The port of the chosen network. -/
def networkPort (testnet : Bool) : UInt16 := if testnet then testnetPort else mainnetPort

/-- How many probes are made unless told otherwise. -/
def defaultAttempts : UInt32 := 5

/-- How long connecting may take unless told otherwise. -/
def defaultTimeout : Duration := .ofSecs 1

/-- The versions of the daemon that this library is made for. -/
def supportedVersions : List String := ["0.8.5", "0.8.6"]

/-- The type of the body of a request. -/
def contentType : String := "application/json"

/-- How this library names itself to the daemon. -/
def userAgent : String := "btcrpc/0.3.0"

/-- The method that shows whether the daemon is ready. -/
def probeMethod : Method := .getInfo

/-- How long a daemon may take to exit before it is killed. -/
def shutdownGrace : Duration := .ofSecs 5

/-- The shortest timeout. -/
def minTimeout : Duration := .ofMillis 1

/-! ## Configurations -/

/-- Settings of one client. -/
structure ConnectionConfig where
  endpoint : Endpoint
  account : String
  secret : String
  timeout : Duration := defaultTimeout
  maxAttempts : UInt32 := defaultAttempts
  /-- The step of the backoff, once it is set. -/
  step : Option Duration := none
deriving Inhabited

namespace ConnectionConfig

/-- Settings for a daemon at the given host and port. -/
def ofHost (international : DomainMapping) (host : String) (port : UInt16)
    (account secret : String) : Except Error ConnectionConfig :=
  match Endpoint.ofHost international host port with
  | .ok endpoint => .ok { endpoint, account, secret }
  | .error fault => .error (.invalidEndpoint (Endpoint.hostUrl host port) fault.message)

/-- Sets the timeout, at least a millisecond. -/
def withTimeout (c : ConnectionConfig) (timeout : Duration) : ConnectionConfig :=
  { c with timeout := timeout.longer minTimeout }

/-- Sets the number of probes, at least one. -/
def withMaxAttempts (c : ConnectionConfig) (attempts : UInt32) : ConnectionConfig :=
  { c with maxAttempts := max attempts 1 }

/-- Sets the step of the backoff. -/
def withBackoffStep (c : ConnectionConfig) (step : Duration) : ConnectionConfig :=
  { c with step := some step }

/-- The step of the backoff. -/
def backoffStep (c : ConnectionConfig) : Duration := c.step.getD c.timeout

/-- The configuration for logs: without the secret. -/
def debugText (c : ConnectionConfig) : String :=
  "ConnectionConfig \x7b endpoint: " ++ Text.quote c.endpoint.text ++
    ", account: " ++ Text.quote c.account ++
    ", secret: \"<redacted>\", timeout: " ++ c.timeout.debugText ++
    ", max_attempts: " ++ toString c.maxAttempts ++
    ", backoff_step: " ++ c.backoffStep.debugText ++ " \x7d"

/-- A change of a configuration. -/
inductive Change where
  | timeout (d : Duration)
  | maxAttempts (n : UInt32)
  | backoffStep (d : Duration)

/-- Makes a change. -/
def apply (c : ConnectionConfig) : Change → ConnectionConfig
  | .timeout d => c.withTimeout d
  | .maxAttempts n => c.withMaxAttempts n
  | .backoffStep d => c.withBackoffStep d

end ConnectionConfig

end DaemonRpc
