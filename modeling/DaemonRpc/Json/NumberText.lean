import DaemonRpc.Decimal.Shortest

/-!
# How a double is written

A double is written with the fewest digits that read back.  `NumberFormat` holds the
decisions that are left: which exponents are written out in full and how the others are
marked.  `NumberFormat.wire` is the format of every JSON text of this library.
-/

namespace DaemonRpc

/-- The choices in writing a decimal: the range of the exponents of the leading digit that
are written out in full, and the signs of the other exponents. -/
structure NumberFormat where
  leastPositional : Int
  greatestPositional : Int
  plusSign : List Char
  minusSign : List Char

namespace NumberFormat

/-- JSON texts write a number in full when its leading digit stands between the fifth
decimal and the sixteenth place before the point, and mark every other exponent by its
sign. -/
def wire : NumberFormat where
  leastPositional := -5
  greatestPositional := 15
  plusSign := ['+']
  minusSign := ['-']

/-- A positive decimal.  A whole number keeps one zero after the point. -/
def decimalChars (f : NumberFormat) (x : Decimal) : List Char :=
  let digits := Nat.toDigits 10 x.digits
  let lead := x.exponent + digits.length - 1
  if f.leastPositional ≤ lead && lead ≤ f.greatestPositional then
    if 0 ≤ x.exponent then
      digits ++ List.replicate x.exponent.toNat '0' ++ ['.', '0']
    else if 0 ≤ lead then
      let whole := lead.toNat + 1
      digits.take whole ++ '.' :: digits.drop whole
    else
      '0' :: '.' :: List.replicate (-lead - 1).toNat '0' ++ digits
  else
    let fraction := if digits.length = 1 then [] else '.' :: digits.drop 1
    let sign := if 0 ≤ lead then f.plusSign else f.minusSign
    digits.take 1 ++ fraction ++ 'e' :: sign ++ Nat.toDigits 10 lead.natAbs

/-- A finite double, with the sign of zero kept. -/
def floatChars (f : NumberFormat) (x : Float) : List Char :=
  let sign := if x.toBits.toNat >>> 63 = 1 then ['-'] else []
  let magnitude := Decimal.Binary.ofFloat x
  sign ++ if magnitude.m = 0 then ['0', '.', '0'] else f.decimalChars (Decimal.shortest magnitude)

end NumberFormat

end DaemonRpc
