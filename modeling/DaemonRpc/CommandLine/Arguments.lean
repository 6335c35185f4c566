import DaemonRpc.Config

/-!
# The arguments of the command line

The words of a command line are options, each at most once, and behind or between them the
method and its parameters.  An option that takes a value has it behind `=` or in the next
word; several one-letter options can share a word.  Every word behind `--` is taken as it
is.

Options that are not given can come from the environment.
-/

namespace DaemonRpc.CommandLine

/-- The whole number below a limit that some digits are. -/
def digits? (limit : Nat) (cs : List Char) : Option Nat :=
  if cs.isEmpty || !cs.all Char.isDigit then none
  else
    let n := cs.foldl (fun n c => 10 * n + (c.toNat - '0'.toNat)) 0
    if n < limit then some n else none

/-- A whole number below a limit, perhaps with a plus sign. -/
def unsigned? (limit : Nat) (text : String) : Option Nat :=
  match text.toList with
  | '+' :: cs => digits? limit cs
  | cs => digits? limit cs

/-- A whole number below a limit, perhaps with a sign: only zero has a minus. -/
def signed? (limit : Nat) (text : String) : Option Nat :=
  match text.toList with
  | '-' :: cs => digits? 1 cs
  | _ => unsigned? limit text

/-- What can be set on the command line. -/
inductive Setting where
  | host
  | port
  | user
  | password
  | timeoutMs
  | attempts
  | backoffMs
  | testnet
  | spawn
  | debug
  | help
deriving DecidableEq

namespace Setting

/-- All settings with their names. -/
def longNames : List (String × Setting) := [
  ("host", host), ("port", port), ("user", user), ("password", password),
  ("timeout-ms", timeoutMs), ("attempts", attempts), ("backoff-ms", backoffMs),
  ("testnet", testnet), ("spawn", spawn), ("debug", debug), ("help", help)]

/-- The settings that have a name of one letter. -/
def shortNames : List (Char × Setting) :=
  [('p', port), ('u', user), ('d', debug), ('h', help)]

/-- A setting that has no value. -/
def isSwitch : Setting → Bool
  | testnet | debug | help => true
  | host | port | user | password | timeoutMs | attempts | backoffMs | spawn => false

/-- The name of a setting in the environment. -/
def environmentName? : Setting → Option String
  | host => some "BTCRPC_HOST"
  | port => some "BTCRPC_PORT"
  | user => some "BTCRPC_USER"
  | password => some "BTCRPC_PASSWORD"
  | timeoutMs => some "BTCRPC_TIMEOUT_MS"
  | attempts => some "BTCRPC_ATTEMPTS"
  | backoffMs => some "BTCRPC_BACKOFF_MS"
  | testnet | spawn | debug | help => none

/-- The number that the text of a value is, where a setting is one. -/
def number? (s : Setting) (text : String) : Option Nat :=
  match s with
  | port => signed? 0x1_0000 text
  | attempts => signed? 0x1_0000_0000 text
  | timeoutMs | backoffMs => unsigned? 0x1_0000_0000_0000_0000 text
  | host | user | password | testnet | spawn | debug | help => none

/-- Whether a setting can have a value: numbers are in range, and a path is not empty. -/
def accepts (s : Setting) (text : String) : Bool :=
  match s with
  | port | attempts | timeoutMs | backoffMs => (s.number? text).isSome
  | spawn => !text.isEmpty
  | host | user | password | testnet | debug | help => true

end Setting

/-- Why a command line is not understood. -/
inductive UsageFault where
  /-- Help was asked for. -/
  | helpWanted
  | unknownOption (word : String)
  | unexpectedValue (setting : Setting)
  | missingValue (setting : Setting)
  | repeated (setting : Setting)
  | invalidValue (setting : Setting) (value : String)
  | missing (what : String)
deriving DecidableEq

/-- What the words hold: the values of settings, and the other words. -/
structure Words where
  settings : List (Setting × String) := []
  others : List String := []

namespace Words

/-- The value of a setting that was given. -/
def value? (w : Words) (s : Setting) : Option String := w.settings.lookup s

/-- Adds a setting that was not there before. -/
def add (w : Words) (s : Setting) (value : String) : Except UsageFault Words :=
  if s = .help then .error .helpWanted
  else if (w.value? s).isSome then .error (.repeated s)
  else if !s.accepts value then .error (.invalidValue s value)
  else .ok { w with settings := w.settings ++ [(s, value)] }

/-- A word that is an option and not a value: it starts with a hyphen and is longer. -/
def isOption (word : String) : Bool :=
  match word.toList with
  | '-' :: _ :: _ => true
  | _ => false

/-- What is left to do with a word: nothing, or to find the value of a setting. -/
inductive Pending where
  | nothing
  | valueOf (s : Setting)

/-- An option with a long name, without its hyphens. -/
def long (w : Words) (cs : List Char) : Except UsageFault (Words × Pending) :=
  let name := String.ofList (cs.takeWhile (· ≠ '='))
  match Setting.longNames.lookup name, cs.dropWhile (· ≠ '=') with
  | none, _ => .error (.unknownOption name)
  | some s, [] => if s.isSwitch then (w.add s "").map (·, .nothing) else .ok (w, .valueOf s)
  | some s, _ :: value =>
    if s.isSwitch then .error (.unexpectedValue s)
    else (w.add s (String.ofList value)).map (·, .nothing)

/-- Options of one letter, without their hyphen; the last may have its value behind it. -/
def short (w : Words) : List Char → Except UsageFault (Words × Pending)
  | [] => .ok (w, .nothing)
  | c :: rest =>
    match Setting.shortNames.lookup c with
    | none => .error (.unknownOption (String.ofList [c]))
    | some s =>
      if s.isSwitch then do (← w.add s "").short rest
      else
        match rest with
        | [] => .ok (w, .valueOf s)
        | '=' :: value => (w.add s (String.ofList value)).map (·, .nothing)
        | value => (w.add s (String.ofList value)).map (·, .nothing)

/-- Takes the words in. -/
def read (w : Words) : Pending → List String → Except UsageFault Words
  | .nothing, [] => .ok w
  | .valueOf s, [] => .error (.missingValue s)
  | .valueOf s, word :: words => do
    if isOption word then .error (.missingValue s) else (← w.add s word).read .nothing words
  | .nothing, word :: words => do
    if isOption word then
      if word = "--" then .ok { w with others := w.others ++ words }
      else
        match word.toList with
        | '-' :: '-' :: cs =>
          let (w, pending) ← w.long cs
          w.read pending words
        | _ :: cs =>
          let (w, pending) ← w.short cs
          w.read pending words
        | [] => .ok w
    else Words.read { w with others := w.others ++ [word] } .nothing words

/-- Adds a setting from the environment, unless it is given. -/
def addFrom (environment : String → Option String) (w : Words) (s : Setting) :
    Except UsageFault Words :=
  match w.value? s, s.environmentName?.bind environment with
  | none, some value => w.add s value
  | _, _ => .ok w

/-- Adds what is not given from the environment. -/
def addEnvironment (w : Words) (environment : String → Option String) : Except UsageFault Words :=
  (Setting.longNames.map (·.2)).foldlM (addFrom environment) w

/-- A setting that must be given. -/
def required (w : Words) (s : Setting) (what : String) : Except UsageFault String :=
  match w.value? s with
  | some v => .ok v
  | none => .error (.missing what)

/-- The number that a setting has, if it is given. -/
def number? (w : Words) (s : Setting) : Option Nat := (w.value? s).bind s.number?

end Words

/-- A command line that was understood. -/
structure Arguments where
  host : String
  port : Option UInt16
  user : String
  password : String
  timeoutMs : Nat
  attempts : UInt32
  backoffMs : Option Nat
  testnet : Bool
  /-- The program to launch. -/
  spawn : Option String
  debug : Bool
  method : String
  params : List String

namespace Arguments

/-- Understands the words of a command line in an environment. -/
def ofWords (environment : String → Option String) (words : List String) :
    Except UsageFault Arguments := do
  let w ← Words.read {} .nothing words
  let w ← w.addEnvironment environment
  let user ← w.required .user "--user"
  let password ← w.required .password "--password"
  match w.others with
  | [] => .error (.missing "METHOD")
  | method :: params =>
    return {
      host := (w.value? .host).getD defaultHost
      port := (w.number? .port).map Nat.toUInt16
      user, password
      timeoutMs := (w.number? .timeoutMs).getD 1000
      attempts := ((w.number? .attempts).map Nat.toUInt32).getD defaultAttempts
      backoffMs := w.number? .backoffMs
      testnet := (w.value? .testnet).isSome
      spawn := w.value? .spawn
      debug := (w.value? .debug).isSome
      method, params }

/-- Where to connect: a launched daemon is on this machine, whatever host is given. -/
def connection (international : DomainMapping) (a : Arguments) :
    Except Error ConnectionConfig := do
  let host := if a.spawn.isSome then defaultHost else a.host
  let port := a.port.getD (networkPort a.testnet)
  let c ← ConnectionConfig.ofHost international host port a.user a.password
  let c := (c.withTimeout (.ofMillis a.timeoutMs)).withMaxAttempts a.attempts
  return match a.backoffMs with
    | some step => c.withBackoffStep (.ofMillis step)
    | none => c

end Arguments

end DaemonRpc.CommandLine
