import DaemonRpc.Time.Timer

/-!
# Spans of time as numbers

`Duration.toNanos` turns the arithmetic of spans into that of numbers: a sum or a multiple is
exact as long as it is at most `Duration.maximum`.

* `le_iff_toNanos_le` is the order of spans.
* `add?_of_le` and `add?_of_lt` decide the checked sum; `toNanos_saturatingAdd` and
  `toNanos_saturatingMul` are the sum and the multiple that stay at the longest span.
* `Timer.millis_of_toNanos_eq` is the wait for a whole number of milliseconds.
-/

namespace DaemonRpc

namespace Duration

/-- The empty span has no nanoseconds. -/
theorem toNanos_zero : zero.toNanos = 0 := by simp [toNanos, zero]

/-- Spans of as many nanoseconds are the same. -/
theorem toNanos_injective {a b : Duration} (h : a.toNanos = b.toNanos) : a = b := by
  have ha := a.nanos_lt
  have hb := b.nanos_lt
  simp only [toNanos, nanosPerSec] at h
  obtain ⟨secs, nanos, _, _⟩ := a
  obtain ⟨secs', nanos', _, _⟩ := b
  obtain rfl : secs = secs' := by
    dsimp only at h ha hb
    omega
  obtain rfl : nanos = nanos' := by
    dsimp only at h
    omega
  rfl

/-- No span is longer than the longest. -/
theorem toNanos_le_maximum (d : Duration) : d.toNanos ≤ maximum.toNanos := by
  have hsecs := d.secs_lt
  have hnanos := d.nanos_lt
  simp only [toNanos, maximum, nanosPerSec]
  omega

/-- Spans compare as their nanoseconds do. -/
theorem le_iff_toNanos_le (a b : Duration) : a.le b ↔ a.toNanos ≤ b.toNanos := by
  have ha := a.nanos_lt
  have hb := b.nanos_lt
  simp only [le, toNanos, nanosPerSec, Bool.or_eq_true, Bool.and_eq_true, decide_eq_true_eq,
    beq_iff_eq]
  omega

/-- The parts are carried without loss. -/
theorem toNanos_of_ofParts? {secs nanos : Nat} {d : Duration} (h : ofParts? secs nanos = some d) :
    d.toNanos = secs * nanosPerSec + nanos := by
  rw [ofParts?] at h
  split at h
  · obtain rfl := Option.some.inj h
    simp only [toNanos, nanosPerSec]
    omega
  · exact absurd h (by simp)

/-- Parts make a span exactly when they are at most the longest one. -/
theorem isSome_ofParts?_iff (secs nanos : Nat) :
    (ofParts? secs nanos).isSome ↔ secs * nanosPerSec + nanos ≤ maximum.toNanos := by
  have hbound : secs + nanos / nanosPerSec < 0x1_0000_0000_0000_0000 ↔
      secs * nanosPerSec + nanos ≤ maximum.toNanos := by
    simp only [toNanos, maximum, nanosPerSec]
    omega
  rw [← hbound, ofParts?]
  by_cases h : secs + nanos / nanosPerSec < 0x1_0000_0000_0000_0000
  · simp [h]
  · simp [h]

/-- What a sum is made of, in nanoseconds. -/
theorem add_parts (a b : Duration) :
    (a.secs + b.secs) * nanosPerSec + (a.nanos + b.nanos) = a.toNanos + b.toNanos := by
  simp only [toNanos, nanosPerSec]
  omega

/-- A sum that is at most the longest span is exact. -/
theorem add?_of_le {a b : Duration} (h : a.toNanos + b.toNanos ≤ maximum.toNanos) :
    ∃ sum, a.add? b = some sum ∧ sum.toNanos = a.toNanos + b.toNanos := by
  rw [← add_parts] at h ⊢
  obtain ⟨sum, hsum⟩ := Option.isSome_iff_exists.1 ((isSome_ofParts?_iff _ _).2 h)
  exact ⟨sum, hsum, toNanos_of_ofParts? hsum⟩

/-- A sum beyond the longest span cannot be represented. -/
theorem add?_of_lt {a b : Duration} (h : maximum.toNanos < a.toNanos + b.toNanos) :
    a.add? b = none := by
  rw [← add_parts] at h
  have hnot : ¬ (a.add? b).isSome := fun hsome => by
    have := (isSome_ofParts?_iff _ _).1 hsome
    omega
  simpa using hnot

/-- Parts that are beyond the longest span become the longest span. -/
theorem toNanos_getD_ofParts? (secs nanos : Nat) :
    ((ofParts? secs nanos).getD maximum).toNanos =
      min (secs * nanosPerSec + nanos) maximum.toNanos := by
  have hsome := isSome_ofParts?_iff secs nanos
  cases hparts : ofParts? secs nanos with
  | some d =>
    rw [hparts] at hsome
    have hle : secs * nanosPerSec + nanos ≤ maximum.toNanos := by simpa using hsome
    rw [Option.getD_some, toNanos_of_ofParts? hparts]
    omega
  | none =>
    rw [hparts] at hsome
    have hlt : ¬ secs * nanosPerSec + nanos ≤ maximum.toNanos := by simpa using hsome
    rw [Option.getD_none]
    omega

/-- A sum is exact up to the longest span, and stays there. -/
theorem toNanos_saturatingAdd (a b : Duration) :
    (a.saturatingAdd b).toNanos = min (a.toNanos + b.toNanos) maximum.toNanos := by
  rw [← add_parts]
  exact toNanos_getD_ofParts? _ _

/-- A multiple is exact up to the longest span, and stays there. -/
theorem toNanos_saturatingMul (d : Duration) (factor : Nat) :
    (d.saturatingMul factor).toNanos = min (d.toNanos * factor) maximum.toNanos := by
  have hparts : d.secs * factor * nanosPerSec + d.nanos * factor = d.toNanos * factor := by
    rw [toNanos, Nat.add_mul, Nat.mul_right_comm]
  rw [← hparts]
  exact toNanos_getD_ofParts? _ _

end Duration

/-- The timer waits for a whole number of milliseconds, or for its longest wait if that is
shorter. -/
theorem Timer.millis_eq_min {d : Duration} {ms : Nat}
    (h : d.toNanos = ms * Duration.nanosPerMilli) : millis d = min ms longest := by
  have hceil : d.ceilMillis = ms := by
    rw [Duration.ceilMillis, h]
    simp only [Duration.nanosPerMilli]
    omega
  rw [millis, clip, hceil]

end DaemonRpc
