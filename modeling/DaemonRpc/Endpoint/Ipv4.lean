/-!
# Addresses of version 4

A host whose last label is a number is an address.  It has up to four numbers between
points, each decimal, octal after `0` or hexadecimal after `0x`, and the last one fills all
bytes that are left.
-/

namespace DaemonRpc

/-- An address of version 4. -/
structure Ipv4 where
  value : Nat
deriving DecidableEq, Inhabited

namespace Ipv4

/-- The value of a digit in a base up to sixteen. -/
def digit? (base : Nat) (c : Char) : Option Nat :=
  let n :=
    if '0' ≤ c && c ≤ '9' then c.toNat - '0'.toNat
    else if 'a' ≤ c && c ≤ 'f' then c.toNat - 'a'.toNat + 10
    else if 'A' ≤ c && c ≤ 'F' then c.toNat - 'A'.toNat + 10
    else base
  if n < base then some n else none

/-- The value of a run of digits. -/
def digits? (base : Nat) (cs : List Char) : Option Nat :=
  cs.foldlM (fun n c => (digit? base c).map (base * n + ·)) 0

/-- A number of an address: its base is in its first characters, and nothing behind them is
zero. -/
def number? : List Char → Option Nat
  | [] => none
  | '0' :: 'x' :: rest => digits? 16 rest
  | '0' :: 'X' :: rest => digits? 16 rest
  | '0' :: d :: rest => digits? 8 (d :: rest)
  | cs => digits? 10 cs

/-- The parts of a text between points. -/
def labels (cs : List Char) : List (List Char) :=
  cs.splitOn '.'

/-- Whether the last label that is not empty at the very end is a number. -/
def endsInNumber (cs : List Char) : Bool :=
  let last := match (labels cs).reverse with
    | [] :: label :: _ => label
    | [[]] => []
    | label :: _ => label
    | [] => []
  (!last.isEmpty && last.all Char.isDigit) || (number? last).isSome

/-- How many values so many parts have. -/
def room (parts : Nat) : Nat := Nat.pow 256 parts

/-- The numbers of an address, the last one filling what the others leave. -/
def combine (numbers : List Nat) : Option Ipv4 :=
  match numbers.reverse with
  | [] => none
  | last :: before =>
    if last < room (4 - before.length) && before.all (· < 256) then
      some ⟨before.reverse.foldl (fun n b => 256 * n + b) 0 * room (4 - before.length) + last⟩
    else none

/-- The address that a text is. -/
def ofChars? (cs : List Char) : Option Ipv4 :=
  let parts := match (labels cs).reverse with
    | [] :: rest => rest.reverse
    | all => all.reverse
  if 4 < parts.length then none
  else (parts.mapM number?).bind combine

/-- The four numbers between points. -/
def text (a : Ipv4) : String :=
  ".".intercalate ([3, 2, 1, 0].map fun parts => toString (a.value / room parts % 256))

end Ipv4

end DaemonRpc
