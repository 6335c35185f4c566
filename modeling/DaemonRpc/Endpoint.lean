import DaemonRpc.Endpoint.Host

/-!
# Endpoints

An `Endpoint` is the URL of a daemon: `http`, perhaps a user and a password, a host, a port,
a path, and perhaps a query and a fragment.  `Endpoint.ofHost` builds it from a host and a
port by writing the two into a URL and reading that URL; a host that holds a delimiter
therefore moves the borders between the parts.  What international hosts mean is handed in.
-/

namespace DaemonRpc

/-- The URL of a daemon.  The parts are as they stand in the text, percent-encoded. -/
structure Endpoint where
  username : String := ""
  password : Option String := none
  host : Host
  /-- The port, unless it is the one that `http` has by itself. -/
  port : Option Nat := none
  /-- The parts of the path behind each slash; there is at least one. -/
  path : List String := [""]
  query : Option String := none
  fragment : Option String := none
deriving DecidableEq, Inhabited

namespace Endpoint

/-- The port that `http` has by itself. -/
def defaultPort : Nat := 80

/-- The port to connect to. -/
def effectivePort (e : Endpoint) : Nat := e.port.getD defaultPort

/-! ## Reading -/

/-- Characters that are dropped wherever they stand. -/
def isDropped (c : Char) : Bool := c = '\t' || c = '\n' || c = '\r'

/-- Characters that end the authority. -/
def endsAuthority (c : Char) : Bool := c = '/' || c = '\\' || c = '?' || c = '#'

/-- The characters before the last `@`, and those behind it, if there is one. -/
def splitUser (authority : List Char) : Option (List Char × List Char) :=
  if authority.contains '@' then
    let host := (authority.reverse.takeWhile (· ≠ '@')).reverse
    some (authority.take (authority.length - host.length - 1), host)
  else none

/-- The user name and the password; an empty password is none. -/
def userParts (cs : List Char) : String × Option String :=
  let name := String.ofList (Percent.encode Percent.userInfo (cs.takeWhile (· ≠ ':')))
  match cs.dropWhile (· ≠ ':') with
  | _ :: c :: rest => (name, some (String.ofList (Percent.encode Percent.userInfo (c :: rest))))
  | _ => (name, none)

/-- The characters of the host, up to a delimiter or a colon outside brackets, and the
rest. -/
def splitHost (inside : Bool) : List Char → List Char × List Char
  | [] => ([], [])
  | c :: cs =>
    if endsAuthority c || (c = ':' && !inside) then ([], c :: cs)
    else
      let (host, rest) := splitHost (if c = '[' then true else if c = ']' then false else inside) cs
      (c :: host, rest)

/-- The port behind a colon, up to a delimiter; no digits, or the digits of the default,
mean none. -/
def readPort (cs : List Char) : Except EndpointFault (Option Nat × List Char) :=
  let digits := cs.takeWhile (!endsAuthority ·)
  let rest := cs.dropWhile (!endsAuthority ·)
  match digits.foldlM (fun n c => do
      let d ← Ipv4.digit? 10 c
      if 10 * n + d < 65536 then some (10 * n + d) else none) 0 with
  | none => .error .invalidPort
  | some n => .ok (if digits.isEmpty || n = defaultPort then none else some n, rest)

/-- A part of the path that means the directory itself. -/
def isSingleDot (cs : List Char) : Bool :=
  [".", "%2e"].contains (String.ofList (cs.map Char.toLower))

/-- A part of the path that means the directory above. -/
def isDoubleDot (cs : List Char) : Bool :=
  ["..", ".%2e", "%2e.", "%2e%2e"].contains (String.ofList (cs.map Char.toLower))

/-- A part of the path that the directory above does not remove: a letter and a colon or a
bar. -/
def isDrive : List Char → Bool
  | [letter, mark] => letter.isAlpha && (mark = ':' || mark = '|')
  | _ => false

/-- Goes to the directory above; the parts are in reverse. -/
def goUp : List (List Char) → List (List Char)
  | [] => []
  | part :: rest => if isDrive part then part :: rest else rest

/-- Resolves the dots of a path; `done` are the parts so far, in reverse. -/
def resolve (done : List (List Char)) : List (List Char) → List (List Char)
  | [] => done.reverse
  | [part] =>
    if isDoubleDot part then (([] : List Char) :: goUp done).reverse
    else if isSingleDot part then (([] : List Char) :: done).reverse
    else (part :: done).reverse
  | part :: rest =>
    if isDoubleDot part then resolve (goUp done) rest
    else if isSingleDot part then resolve done rest
    else resolve (part :: done) rest

/-- The parts of the path that starts at the given characters, up to a query or a
fragment. -/
def pathParts (cs : List Char) : List String :=
  let cs := match cs with
    | c :: rest => if c = '/' || c = '\\' then rest else cs
    | [] => []
  let parts := (cs.map fun c => if c = '\\' then '/' else c).splitOn '/'
  (resolve [] (parts.map (Percent.encode Percent.path))).map String.ofList

/-- Everything behind the port: path, query and fragment. -/
def readRest (cs : List Char) : List String × Option String × Option String :=
  let path := cs.takeWhile fun c => c ≠ '?' && c ≠ '#'
  let behindPath := cs.dropWhile fun c => c ≠ '?' && c ≠ '#'
  let (query, behindQuery) := match behindPath with
    | '?' :: rest =>
      (some (String.ofList (Percent.encode Percent.query (rest.takeWhile (· ≠ '#')))),
        rest.dropWhile (· ≠ '#'))
    | other => (none, other)
  let fragment := match behindQuery with
    | '#' :: rest => some (String.ofList (Percent.encode Percent.fragment rest))
    | _ => none
  (pathParts path, query, fragment)

/-- The characters of a URL behind the slashes that it starts with. -/
def afterSlashes (cs : List Char) : List Char :=
  (cs.filter (!isDropped ·)).dropWhile fun c => c = '/' || c = '\\'

/-- What an authority has in front of its last `@`, as user and password, and behind it. -/
def userAndSite (authority : List Char) : (String × Option String) × List Char :=
  match splitUser authority with
  | some (user, site) => (userParts user, site)
  | none => (("", none), authority)

/-- The port behind a host, if there is a colon, and what is behind it. -/
def portAndRest : List Char → Except EndpointFault (Option Nat × List Char)
  | ':' :: rest => readPort rest
  | rest => .ok (none, rest)

section Read

variable (international : DomainMapping)

/-- The endpoint of an authority and of what is behind it. -/
def ofParts (authority behind : List Char) : Except EndpointFault Endpoint :=
  let (user, site) := userAndSite authority
  let (host, rest) := splitHost false (site ++ behind)
  if host.isEmpty then .error .emptyHost
  else do
    let host ← Host.ofChars international host
    let (port, rest) ← portAndRest rest
    let (path, query, fragment) := readRest rest
    return { username := user.1, password := user.2, host, port, path, query, fragment }

/-- The endpoint whose URL has the given characters behind `http:`. -/
def ofChars (cs : List Char) : Except EndpointFault Endpoint :=
  let text := afterSlashes cs
  ofParts international (text.takeWhile (!endsAuthority ·)) (text.dropWhile (!endsAuthority ·))

/-- The endpoint of a host and a port. -/
def ofHost (host : String) (port : UInt16) : Except EndpointFault Endpoint :=
  ofChars international (("//" ++ host ++ ":" ++ toString port.toNat).toList)

end Read

/-! ## Writing -/

/-- The text that a host and a port are written into. -/
def hostUrl (host : String) (port : UInt16) : String :=
  "http://" ++ host ++ ":" ++ toString port.toNat

/-- The user name and the password in front of the host. -/
def userText (e : Endpoint) : String :=
  match e.password with
  | some password => e.username ++ ":" ++ password ++ "@"
  | none => if e.username.isEmpty then "" else e.username ++ "@"

/-- The path and the query. -/
def target (e : Endpoint) : String :=
  String.join (e.path.map ("/" ++ ·)) ++ (e.query.elim "" ("?" ++ ·))

/-- The text of the URL. -/
def text (e : Endpoint) : String :=
  "http://" ++ e.userText ++ e.host.text ++ (e.port.elim "" fun p => ":" ++ toString p) ++
    e.target ++ (e.fragment.elim "" ("#" ++ ·))

end Endpoint

end DaemonRpc
