import DaemonRpc.Backoff
import DaemonRpc.Proofs.Time.Duration
import Mathlib.Algebra.BigOperators.Group.Finset.Basic
import Mathlib.Algebra.BigOperators.Intervals
import Mathlib.Algebra.BigOperators.Ring.Finset
import Mathlib.Algebra.Order.BigOperators.Group.Finset
import Mathlib.Tactic.Common

/-!
# The delays of a schedule as numbers

`nanosUpTo` is the exact sum of the delays up to an attempt, in nanoseconds.

* `toNanos_delayFor` and `toNanos_delayUpTo` are the delay of an attempt and the planned sum: both
  are exact up to the longest span, and stay there.
* `nanosUpTo_eq` is that sum without its terms, and `delays_closedForm` is the whole schedule in
  this form, for any number of attempts and any step.
* `add?_delayFor_of_le` and `add?_delayFor_of_lt` decide whether a delay can be added to what was
  waited for before.
* `millis_delayFor` is the wait of the timer before an attempt.
-/

namespace DaemonRpc.BackoffSchedule

/-- The nanoseconds that are waited for in the given number of attempts. -/
def nanosUpTo (s : BackoffSchedule) (attempts : Nat) : Nat :=
  ∑ i ∈ Finset.range attempts, s.step.toNanos * (i + 1)

/-- The delays of a schedule stay within the range of spans, also when they are added. -/
def Representable (s : BackoffSchedule) : Prop :=
  s.nanosUpTo s.maxAttempts.toNat ≤ Duration.maximum.toNanos

@[simp] theorem nanosUpTo_zero (s : BackoffSchedule) : s.nanosUpTo 0 = 0 := Finset.sum_range_zero _

theorem nanosUpTo_succ (s : BackoffSchedule) (attempts : Nat) :
    s.nanosUpTo (attempts + 1) = s.nanosUpTo attempts + s.step.toNanos * (attempts + 1) :=
  Finset.sum_range_succ _ _

theorem nanosUpTo_le {s : BackoffSchedule} {m n : Nat} (h : m ≤ n) :
    s.nanosUpTo m ≤ s.nanosUpTo n :=
  Finset.sum_le_sum_of_subset (Finset.range_mono h)

/-- The first `n` attempts wait for `n * (n + 1) / 2` steps together. -/
theorem nanosUpTo_eq (s : BackoffSchedule) (attempts : Nat) :
    s.nanosUpTo attempts = s.step.toNanos * attempts * (attempts + 1) / 2 := by
  have hshift : ∑ i ∈ Finset.range attempts, (i + 1) = ∑ i ∈ Finset.range (attempts + 1), i := by
    rw [Finset.sum_range_succ', Nat.add_zero]
  have htwice : s.nanosUpTo attempts * 2 = s.step.toNanos * attempts * (attempts + 1) := by
    calc s.nanosUpTo attempts * 2
        = s.step.toNanos * ((∑ i ∈ Finset.range (attempts + 1), i) * 2) := by
          rw [nanosUpTo, ← Finset.mul_sum, hshift, Nat.mul_assoc]
      _ = s.step.toNanos * ((attempts + 1) * attempts) := by
          rw [Finset.sum_range_id_mul_two, Nat.add_sub_cancel]
      _ = s.step.toNanos * attempts * (attempts + 1) := by
          rw [Nat.mul_comm (attempts + 1), Nat.mul_assoc]
  rw [← htwice, Nat.mul_div_cancel _ (by decide)]

/-- The delay before an attempt is as many steps, up to the longest span. -/
theorem toNanos_delayFor (s : BackoffSchedule) (attempt : Nat) :
    (s.delayFor attempt).toNanos = min (s.step.toNanos * attempt) Duration.maximum.toNanos :=
  Duration.toNanos_saturatingMul s.step attempt

/-- No delay is shorter than that of an earlier attempt. -/
theorem delayFor_le (s : BackoffSchedule) {m n : Nat} (h : m ≤ n) :
    (s.delayFor m).le (s.delayFor n) := by
  have hsteps : s.step.toNanos * m ≤ s.step.toNanos * n := Nat.mul_le_mul_left _ h
  rw [Duration.le_iff_toNanos_le, toNanos_delayFor, toNanos_delayFor]
  omega

/-- Adding delays one by one, and staying at the longest span, loses nothing up to that span. -/
theorem toNanos_addDelays (s : BackoffSchedule) (count attempt : Nat) (total : Duration) :
    (s.addDelays count attempt total).toNanos =
      min (total.toNanos + ∑ i ∈ Finset.range count, s.step.toNanos * (attempt + i))
        Duration.maximum.toNanos := by
  induction count generalizing attempt total with
  | zero =>
    have hle := total.toNanos_le_maximum
    rw [addDelays, Finset.sum_range_zero]
    omega
  | succ count ih =>
    have hshift : ∑ i ∈ Finset.range count, s.step.toNanos * (attempt + 1 + i) =
        ∑ i ∈ Finset.range count, s.step.toNanos * (attempt + (i + 1)) := by
      apply Finset.sum_congr rfl
      intro i _
      rw [Nat.add_assoc, Nat.add_comm 1 i]
    rw [addDelays, ih, Duration.toNanos_saturatingAdd, toNanos_delayFor, hshift,
      Finset.sum_range_succ', Nat.add_zero]
    omega

/-- The planned sum of the delays up to an attempt. -/
theorem toNanos_delayUpTo (s : BackoffSchedule) (attempt : Nat) :
    (s.delayUpTo attempt).toNanos = min (s.nanosUpTo attempt) Duration.maximum.toNanos := by
  have hsum : ∑ i ∈ Finset.range attempt, s.step.toNanos * (1 + i) = s.nanosUpTo attempt := by
    apply Finset.sum_congr rfl
    intro i _
    rw [Nat.add_comm]
  rw [delayUpTo, toNanos_addDelays, Duration.toNanos_zero, Nat.zero_add, hsum]

/-- The planned sum grows by one delay with each attempt, and stays at the longest span. -/
theorem delayUpTo_succ (s : BackoffSchedule) (attempt : Nat) :
    s.delayUpTo (attempt + 1) =
      (s.delayUpTo attempt).saturatingAdd (s.delayFor (attempt + 1)) := by
  apply Duration.toNanos_injective
  rw [Duration.toNanos_saturatingAdd, toNanos_delayUpTo, toNanos_delayUpTo, toNanos_delayFor,
    nanosUpTo_succ]
  omega

/-- Whoever has waited for the exact sum has waited as planned. -/
theorem eq_delayUpTo {s : BackoffSchedule} {total : Duration} {attempt : Nat}
    (h : total.toNanos = s.nanosUpTo attempt) : total = s.delayUpTo attempt := by
  apply Duration.toNanos_injective
  have hle := total.toNanos_le_maximum
  rw [toNanos_delayUpTo]
  omega

/-- As long as the sum is in range it is the sum of the delays. -/
theorem nanosUpTo_eq_sum_delayFor {s : BackoffSchedule} {attempts : Nat}
    (h : s.nanosUpTo attempts ≤ Duration.maximum.toNanos) :
    s.nanosUpTo attempts = ∑ i ∈ Finset.range attempts, (s.delayFor (i + 1)).toNanos := by
  apply Finset.sum_congr rfl
  intro i hi
  have hterm := Finset.single_le_sum (f := fun i => s.step.toNanos * (i + 1))
    (fun _ _ => Nat.zero_le _) hi
  have hle : s.step.toNanos * (i + 1) ≤ Duration.maximum.toNanos := le_trans hterm h
  rw [toNanos_delayFor, Nat.min_eq_left hle]

/-- A plan whose delays are beyond the range is as long as the longest span. -/
theorem totalDelay_of_not_representable {s : BackoffSchedule} (h : ¬ s.Representable) :
    s.totalDelay = .maximum := by
  apply Duration.toNanos_injective
  rw [Representable] at h
  rw [totalDelay, toNanos_delayUpTo]
  omega

/-- The delay before an attempt is added exactly if the sum is in range. -/
theorem add?_delayFor_of_le {s : BackoffSchedule} {i : Nat} {total : Duration}
    (htotal : total.toNanos = s.nanosUpTo i)
    (h : s.nanosUpTo (i + 1) ≤ Duration.maximum.toNanos) :
    ∃ sum, total.add? (s.delayFor (i + 1)) = some sum ∧ sum.toNanos = s.nanosUpTo (i + 1) := by
  have hsucc := s.nanosUpTo_succ i
  have hdelay : (s.delayFor (i + 1)).toNanos = s.step.toNanos * (i + 1) := by
    rw [toNanos_delayFor]
    omega
  have hle : total.toNanos + (s.delayFor (i + 1)).toNanos ≤ Duration.maximum.toNanos := by
    omega
  obtain ⟨sum, hadd, hsum⟩ := Duration.add?_of_le hle
  exact ⟨sum, hadd, by omega⟩

/-- The delay before an attempt cannot be added if the sum is out of range. -/
theorem add?_delayFor_of_lt {s : BackoffSchedule} {i : Nat} {total : Duration}
    (htotal : total.toNanos = s.nanosUpTo i)
    (h : Duration.maximum.toNanos < s.nanosUpTo (i + 1)) :
    total.add? (s.delayFor (i + 1)) = none := by
  apply Duration.add?_of_lt
  have hsucc := s.nanosUpTo_succ i
  have hstep := s.step.toNanos_le_maximum
  rw [toNanos_delayFor]
  -- the first delay is the step itself, and before any other something was waited for
  cases i with
  | zero =>
    have hnone := s.nanosUpTo_zero
    omega
  | succ i =>
    have hfirst : s.step.toNanos ≤ s.nanosUpTo (i + 1) := by
      have := Nat.le_mul_of_pos_right s.step.toNanos (by omega : 0 < i + 1)
      rw [nanosUpTo_succ]
      omega
    by_cases hzero : s.step.toNanos = 0
    · have hnone : s.nanosUpTo (i + 1) = 0 := by simp [nanosUpTo, hzero]
      simp only [hzero, hnone, Nat.zero_mul] at hsucc
      omega
    · omega

/-- Delays within the timer's range stay within the range of spans. -/
theorem representable_of_range {s : BackoffSchedule}
    (hrange : s.step.toNanos * s.maxAttempts.toNat ≤ Timer.longest * Duration.nanosPerMilli) :
    s.Representable := by
  have hdelay : ∀ i ∈ Finset.range s.maxAttempts.toNat,
      s.step.toNanos * (i + 1) ≤ Timer.longest * Duration.nanosPerMilli := by
    intro i hi
    have hi : i < s.maxAttempts.toNat := by simpa using hi
    exact le_trans (Nat.mul_le_mul_left _ hi) hrange
  have hsum := Finset.sum_le_sum hdelay
  rw [Finset.sum_const_nat (fun _ _ => rfl), Finset.card_range] at hsum
  have hcount := Nat.mul_le_mul_right (Timer.longest * Duration.nanosPerMilli)
    (Nat.le_of_lt s.maxAttempts.toNat_lt)
  have hmaximum : 2 ^ 32 * (Timer.longest * Duration.nanosPerMilli) ≤ Duration.maximum.toNanos := by
    decide
  exact le_trans hsum (le_trans hcount hmaximum)

/-- A schedule of any number of attempts and any step, in whole nanoseconds.  Each delay is as many
steps, cut off at the longest span, so none is shorter than an earlier one.  The planned sum is made
of delays that are cut off, and is cut off itself whenever one is added; it is still the exact sum
of the steps, cut off once at the end. -/
theorem delays_closedForm (s : BackoffSchedule) :
    (∀ n, (s.delayFor n).toNanos = min (n * s.step.toNanos) Duration.maximum.toNanos) ∧
    (∀ m n, m ≤ n → (s.delayFor m).le (s.delayFor n)) ∧
    (s.delayUpTo 0 = .zero ∧
      ∀ n, s.delayUpTo (n + 1) = (s.delayUpTo n).saturatingAdd (s.delayFor (n + 1))) ∧
    (∀ n, (s.delayUpTo n).toNanos =
      min (∑ i ∈ Finset.range n, (i + 1) * s.step.toNanos) Duration.maximum.toNanos) ∧
    s.totalDelay = s.delayUpTo s.maxAttempts.toNat ∧
    s.totalDelay.toNanos =
      min (s.step.toNanos * s.maxAttempts.toNat * (s.maxAttempts.toNat + 1) / 2)
        Duration.maximum.toNanos := by
  refine ⟨?_, fun m n h => s.delayFor_le h, ⟨rfl, s.delayUpTo_succ⟩, ?_, rfl, ?_⟩
  · intro n
    rw [toNanos_delayFor, Nat.mul_comm]
  · intro n
    simp only [toNanos_delayUpTo, nanosUpTo, Nat.mul_comm]
  · rw [totalDelay, toNanos_delayUpTo, nanosUpTo_eq]

/-- The most attempts there can be.  Two seconds are the longest step in whole seconds whose delays
can be added; with three the sum stays at the longest span. -/
theorem delays_closedForm_most_attempts :
    let s := make 4294967295 (.ofSecs 2)
    2147483647 ≤ 4294967295 ∧ (s.delayFor 2147483647).le (s.delayFor 4294967295) ∧
      s.totalDelay = .ofSecs 18446744069414584320 ∧
      (make 4294967295 (.ofSecs 3)).totalDelay = .maximum := by
  intro s
  have hle : 2147483647 ≤ 4294967295 := by decide
  obtain ⟨-, hmono, -, -, -, htwo⟩ := delays_closedForm s
  obtain ⟨-, -, -, -, -, hthree⟩ := delays_closedForm (make 4294967295 (.ofSecs 3))
  refine ⟨hle, hmono _ _ hle, Duration.toNanos_injective ?_, Duration.toNanos_injective ?_⟩
  · rw [htwo]
    decide
  · rw [hthree]
    decide

end DaemonRpc.BackoffSchedule
