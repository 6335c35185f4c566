/-!
# Spans of time

A `Duration` is a number of whole seconds that fits 64 bits and a rest of nanoseconds.
Its arithmetic comes in two kinds.  The checked operations `add?` and `mul?` answer `none`
when the seconds leave the range, and the saturating ones answer `Duration.maximum` then.

* `toNanos` is the view: the span as one number of nanoseconds.
* `debugText` writes a span the way logs show it: in the largest unit that leaves a whole
  part, with the decimals that are needed.
* `ofText?` and `text` read and write the plain form `S.NNNNNNNNN`.
-/

namespace DaemonRpc

/-- A span of time: whole seconds below `2 ^ 64` and the nanoseconds beyond them. -/
structure Duration where
  secs : Nat
  nanos : Nat
  secs_lt : secs < 0x1_0000_0000_0000_0000 := by decide
  nanos_lt : nanos < 1_000_000_000 := by decide
deriving DecidableEq

namespace Duration

/-- Nanoseconds in a second. -/
def nanosPerSec : Nat := 1_000_000_000

/-- Nanoseconds in a millisecond. -/
def nanosPerMilli : Nat := 1_000_000

/-- The empty span. -/
def zero : Duration where
  secs := 0
  nanos := 0

/-- The longest span. -/
def maximum : Duration where
  secs := 0xffff_ffff_ffff_ffff
  nanos := 999_999_999

instance : Inhabited Duration := ⟨zero⟩

/-- The span as one number of nanoseconds. -/
def toNanos (d : Duration) : Nat := d.secs * nanosPerSec + d.nanos

/-- The span of the given seconds and nanoseconds, the latter carried into the seconds;
`none` when the seconds leave their range. -/
def ofParts? (secs nanos : Nat) : Option Duration :=
  if h : secs + nanos / nanosPerSec < 0x1_0000_0000_0000_0000 then
    some {
      secs := secs + nanos / nanosPerSec
      nanos := nanos % nanosPerSec
      secs_lt := h
      nanos_lt := Nat.mod_lt _ (by decide) }
  else none

/-- The sum of two spans, when it can be represented. -/
def add? (a b : Duration) : Option Duration := ofParts? (a.secs + b.secs) (a.nanos + b.nanos)

/-- The sum of two spans, or the longest span. -/
def saturatingAdd (a b : Duration) : Duration := (a.add? b).getD maximum

/-- A multiple of a span, when it can be represented. -/
def mul? (d : Duration) (factor : Nat) : Option Duration :=
  ofParts? (d.secs * factor) (d.nanos * factor)

/-- A multiple of a span, or the longest span. -/
def saturatingMul (d : Duration) (factor : Nat) : Duration := (d.mul? factor).getD maximum

/-- The span of whole milliseconds, or the longest span. -/
def ofMillis (ms : Nat) : Duration := (ofParts? 0 (ms * nanosPerMilli)).getD maximum

/-- The span of whole seconds, or the longest span. -/
def ofSecs (s : Nat) : Duration := (ofParts? s 0).getD maximum

/-- Spans compare by their seconds first. -/
def le (a b : Duration) : Bool :=
  a.secs < b.secs || (a.secs == b.secs && a.nanos ≤ b.nanos)

/-- The longer of two spans. -/
def longer (a b : Duration) : Duration := if a.le b then b else a

/-- The least number of whole milliseconds that is not shorter than the span. -/
def ceilMillis (d : Duration) : Nat := (d.toNanos + (nanosPerMilli - 1)) / nanosPerMilli

/-! ## Text -/

/-- The digits of `n`, with zeros in front up to `width` digits. -/
def padded (width n : Nat) : List Char :=
  let digits := Nat.toDigits 10 n
  List.replicate (width - digits.length) '0' ++ digits

/-- A whole part and the `width` decimals after it, without the zeros at their end. -/
def decimalText (whole fraction width : Nat) (unit : String) : String :=
  let decimals := ((padded width fraction).reverse.dropWhile (· = '0')).reverse
  let point := if decimals.isEmpty then [] else ['.']
  toString whole ++ String.ofList (point ++ decimals) ++ unit

/-- The span as logs show it: in seconds, or below one second in the largest unit of
milliseconds, microseconds and nanoseconds that leaves a whole part. -/
def debugText (d : Duration) : String :=
  if 0 < d.secs then decimalText d.secs d.nanos 9 "s"
  else if nanosPerMilli ≤ d.nanos then
    decimalText (d.nanos / nanosPerMilli) (d.nanos % nanosPerMilli) 6 "ms"
  else if 1000 ≤ d.nanos then decimalText (d.nanos / 1000) (d.nanos % 1000) 3 "µs"
  else decimalText d.nanos 0 0 "ns"

/-- The plain form: whole seconds, a point, and nine digits of nanoseconds. -/
def text (d : Duration) : String :=
  toString d.secs ++ "." ++ String.ofList (padded 9 d.nanos)

/-- Reads the plain form; fewer than nine decimals stand for leading ones, and the point
may be missing. -/
def ofText? (s : String) : Option Duration :=
  match s.splitOn "." with
  | [secs] => secs.toNat?.bind fun n => ofParts? n 0
  | [secs, nanos] =>
    let digits := nanos.toList.take 9
    let filled := String.ofList (digits ++ List.replicate (9 - digits.length) '0')
    secs.toNat?.bind fun n => filled.toNat?.bind fun m => ofParts? n m
  | _ => none

end Duration

end DaemonRpc
