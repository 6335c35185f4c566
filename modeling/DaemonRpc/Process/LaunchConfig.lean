import DaemonRpc.Config

/-!
# How to start a daemon

`LaunchConfig` names the program, the account that it will accept and what else it is told.
`args` are its arguments in order.  `redactedArgs` are the arguments for logs: what follows
`-rpcpassword=` is hidden, wherever such an argument comes from.

The paths of a configuration are texts.  A path of the system that is not UTF-8 is no text, and
there is no configuration with it.
-/

namespace DaemonRpc

/-- How to start a daemon. -/
structure LaunchConfig where
  binary : String
  account : String
  secret : String
  testnet : Bool := false
  dataDir : Option String := none
  /-- Arguments behind the ones that are made from the other settings. -/
  extraArgs : List String := []
  /-- The file that takes the daemon's output; without one it is discarded. -/
  logFile : Option String := none
  /-- The time between the request to exit and the kill. -/
  grace : Duration := shutdownGrace

namespace LaunchConfig

/-- What an argument that carries the secret starts with. -/
def secretFlag : String := "-rpcpassword="

/-- What stands for a secret in logs. -/
def mask : String := "****"

/-- The arguments, in order. -/
def args (c : LaunchConfig) : List String :=
  (if c.testnet then ["-testnet"] else []) ++
    ["-rpcuser=" ++ c.account, secretFlag ++ c.secret] ++
    (c.dataDir.map ("-datadir=" ++ ·)).toList ++ c.extraArgs

/-- Hides the secret of an argument that carries one. -/
def redact (arg : String) : String :=
  if secretFlag.toList.isPrefixOf arg.toList then secretFlag ++ mask else arg

/-- The arguments for logs. -/
def redactedArgs (c : LaunchConfig) : List String := c.args.map redact

/-- The configuration for logs, with the secret hidden.  A path is quoted like any other text, in
which an apostrophe stands as it is. -/
def debugText (c : LaunchConfig) : String :=
  "LaunchConfig \x7b binary: " ++ Text.quote c.binary ++
    ", testnet: " ++ (if c.testnet then "true" else "false") ++
    ", account: " ++ Text.quote c.account ++
    ", secret: " ++ Text.quote mask ++
    ", data_dir: " ++ Text.quoteOption c.dataDir ++
    ", extra_args: " ++ Text.quoteList c.extraArgs ++
    ", log_file: " ++ Text.quoteOption c.logFile ++
    ", shutdown_grace: " ++ c.grace.debugText ++ " \x7d"

/-- A change of a configuration. -/
inductive Change where
  | testnet (b : Bool)
  | dataDir (path : String)
  | arg (text : String)
  | logFile (path : String)
  | grace (d : Duration)

/-- Makes a change; an argument goes behind the earlier ones. -/
def apply (c : LaunchConfig) : Change → LaunchConfig
  | .testnet b => { c with testnet := b }
  | .dataDir path => { c with dataDir := some path }
  | .arg text => { c with extraArgs := c.extraArgs ++ [text] }
  | .logFile path => { c with logFile := some path }
  | .grace d => { c with grace := d }

end LaunchConfig

end DaemonRpc
