/-!
# The shortest decimal that reads back

A double is `m * 2 ^ q` for whole `m` and `q`.  The reals that round to it form an interval
around it, whose ends belong to it exactly when `m` is even.  `shortest` answers the decimal
with the fewest digits inside that interval, and of several such decimals the nearest one.

A grid of decimals with `n` digits has a point in the interval only if one of the two grid
points around the value is in it.  The search therefore tests those two points, for
`n = 1, 2, …, 17`; seventeen digits always suffice.
-/

namespace DaemonRpc

/-- The decimal `digits * 10 ^ exponent`. -/
structure Decimal where
  digits : Nat
  exponent : Int
deriving DecidableEq, Inhabited

namespace Decimal

/-- A finite double without its sign, as `m * 2 ^ q`.  `narrow` says that the next smaller
double is only half as far away as the next greater one. -/
structure Binary where
  m : Nat
  q : Int
  narrow : Bool
deriving DecidableEq

/-- The leading bit of a normal double, which is not stored. -/
def implicitBit : Nat := 0x10_0000_0000_0000

/-- The magnitude of a finite double. -/
def Binary.ofFloat (x : Float) : Binary :=
  let bits := x.toBits.toNat
  let fraction := bits % implicitBit
  let exponent : Nat := bits / implicitBit % 2048
  if exponent = 0 then
    { m := fraction, q := -1074, narrow := false }
  else
    { m := fraction + implicitBit
      q := (exponent : Int) - 1075
      narrow := fraction = 0 && 1 < exponent }

/-- The fraction `n / d` multiplied by `b ^ e`, as a fraction. -/
def scale (n d b : Nat) (e : Int) : Nat × Nat :=
  if 0 ≤ e then (n * b.pow e.toNat, d) else (n, d * b.pow (-e).toNat)

/-- How many decimal digits `n` has; zero has none. -/
def digitCount (n : Nat) : Nat := if n = 0 then 0 else (Nat.toDigits 10 n).length

/-- The exponent of the leading digit of `n / d`, for positive `n` and `d`. -/
def leadingExponent (n d : Nat) : Int :=
  if d ≤ n then (digitCount (n / d) : Int) - 1
  else -(digitCount ((d + n - 1) / n - 1) : Int)

/-- The point of the grid of `10 ^ k` nearest to the value among those of the two points
around it that round to the same double. -/
def onGrid (b : Binary) (k : Int) : Option Nat :=
  -- The value is `4 * m` units of `2 ^ (q - 2)`; the interval has whole ends in that unit.
  let (one, den) := scale 1 1 2 (b.q - 2)
  let (one, den) := scale one den 10 (-k)
  let value := 4 * b.m * one
  let low := (if b.narrow then 4 * b.m - 1 else 4 * b.m - 2) * one
  let high := (4 * b.m + 2) * one
  let inside (p : Nat) : Bool :=
    if b.m % 2 = 0 then low ≤ p * den && p * den ≤ high else low < p * den && p * den < high
  let below := value / den
  let above := below + 1
  let roomBelow := value - below * den
  let roomAbove := above * den - value
  match inside below && 0 < below, inside above with
  | true, true =>
    if roomBelow < roomAbove || (roomBelow = roomAbove && below % 2 = 0) then some below
    else some above
  | true, false => some below
  | false, true => some above
  | false, false => none

/-- Removes the zeros at the end of the digits, at most `fuel` of them. -/
def stripZeros : Nat → Decimal → Decimal
  | 0, x => x
  | fuel + 1, x =>
    if x.digits % 10 = 0 && x.digits ≠ 0 then
      stripZeros fuel { digits := x.digits / 10, exponent := x.exponent + 1 }
    else x

/-- The shortest decimal of a positive double. -/
def shortest (b : Binary) : Decimal :=
  let (n, d) := scale b.m 1 2 b.q
  let lead := leadingExponent n d
  let found := (List.range 17).findSome? fun (i : Nat) =>
    let k := lead - i
    (onGrid b k).map fun p => stripZeros 400 { digits := p, exponent := k }
  found.getD { digits := b.m, exponent := 0 }

end Decimal

end DaemonRpc
