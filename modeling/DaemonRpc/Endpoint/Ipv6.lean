import DaemonRpc.Endpoint.Ipv4

/-!
# Addresses of version 6

An address of version 6 has eight pieces of sixteen bits.  In a text `::` stands for a run of
zero pieces, and the last two pieces may be written as an address of version 4.  The
canonical text shortens the first of the longest runs of at least two zero pieces.
-/

namespace DaemonRpc

/-- An address of version 6, as its eight pieces. -/
structure Ipv6 where
  pieces : List Nat
deriving DecidableEq, Inhabited

namespace Ipv6

/-! ## Reading -/

/-- What has been read: the pieces, the last one first, and how many of them stand before
the end of the shortened run. -/
structure Partial where
  reversed : List Nat := []
  shortened : Option Nat := none

/-- Takes a piece in. -/
def Partial.push (p : Partial) (piece : Nat) : Partial := { p with reversed := piece :: p.reversed }

/-- Takes in a shortened run, which is at least one zero piece. -/
def Partial.shorten (p : Partial) : Partial where
  reversed := 0 :: p.reversed
  shortened := some (p.reversed.length + 1)

/-- The address, when all pieces are there. -/
def Partial.finish (p : Partial) : Option Ipv6 :=
  let pieces := p.reversed.reverse
  match p.shortened with
  | none => if pieces.length = 8 then some ⟨pieces⟩ else none
  | some n => some ⟨pieces.take n ++ List.replicate (8 - pieces.length) 0 ++ pieces.drop n⟩

/-- A decimal number below 256 without leading zeros. -/
def byte? (cs : List Char) : Option Nat :=
  match cs with
  | [] => none
  | ['0'] => some 0
  | '0' :: _ => none
  | cs => if cs.length ≤ 3 then (Ipv4.digits? 10 cs).filter (· < 256) else none

/-- The two pieces of four decimal numbers. -/
def tail? (p : Partial) (cs : List Char) : Option Partial :=
  match (Ipv4.labels cs).mapM byte? with
  | some [a, b, c, d] =>
    if p.reversed.length ≤ 6 then some ((p.push (256 * a + b)).push (256 * c + d)) else none
  | _ => none

/-- The hexadecimal digits at the front, at most `n`, and what is left. -/
def hexFront : Nat → List Char → List Char × List Char
  | 0, cs => ([], cs)
  | _ + 1, [] => ([], [])
  | n + 1, c :: cs =>
    if (Ipv4.digit? 16 c).isSome then
      let (ds, rest) := hexFront n cs
      (c :: ds, rest)
    else ([], c :: cs)

/-- Reads pieces; `fuel` bounds their number. -/
def pieces? : Nat → Partial → List Char → Option Partial
  | _, p, [] => some p
  | 0, _, _ :: _ => none
  | fuel + 1, p, cs@(c :: rest) =>
    if p.reversed.length = 8 then none
    else if c = ':' then
      if p.shortened.isSome then none else pieces? fuel p.shorten rest
    else
      let (ds, behind) := hexFront 4 cs
      let piece := (Ipv4.digits? 16 ds).getD 0
      match behind with
      | [] => some (p.push piece)
      | '.' :: _ => if ds.isEmpty then none else tail? p cs
      | ':' :: behind => if behind.isEmpty then none else pieces? fuel (p.push piece) behind
      | _ => none

/-- The address that a text is. -/
def ofChars? (cs : List Char) : Option Ipv6 :=
  match cs with
  | [] => none
  | [_] => none
  | ':' :: c :: rest =>
    if c = ':' then (pieces? rest.length ({} : Partial).shorten rest).bind Partial.finish else none
  | cs => (pieces? cs.length {} cs).bind Partial.finish

/-! ## Writing -/

/-- How many zeros are at the front. -/
def zerosAhead (pieces : List Nat) : Nat := (pieces.takeWhile (· = 0)).length

/-- The first of the longest runs of zeros: where it starts and how long it is. -/
def longestRun : Nat → List Nat → Nat × Nat
  | _, [] => (0, 0)
  | start, piece :: rest =>
    let here := zerosAhead (piece :: rest)
    let (start', length') := longestRun (start + 1) rest
    if length' ≤ here && 0 < here then (start, here) else (start', length')

/-- The pieces in hexadecimal between colons. -/
def joined (pieces : List Nat) : String :=
  ":".intercalate (pieces.map fun n => String.ofList (Nat.toDigits 16 n))

/-- The canonical text. -/
def text (a : Ipv6) : String :=
  let (start, length) := longestRun 0 a.pieces
  if length < 2 then joined a.pieces
  else joined (a.pieces.take start) ++ "::" ++ joined (a.pieces.drop (start + length))

end Ipv6

end DaemonRpc
