import DaemonRpc.Client.Establishment
import DaemonRpc.Proofs.Backoff
import DaemonRpc.Proofs.Client.Wire
import DaemonRpc.Proofs.Config

/-!
# The attempts of an establishment

What an establishment is going to do follows from what it is asked, from its surroundings, and
from the wire that it begins on.  The functions here say so for each attempt, without running
anything; attempts are counted from zero, so that `i` is also the number of attempts before.

* `Establisher.probeAt`, `exchangeAt` and `outcomeAt` are the probe, what the transport makes
  of it, and what the answer means.
* `begunAt`, `askedAt` and `answeredAt` are the times of an attempt that nothing cuts off, and
  `askedAt_eq` gives the second as a sum.
* `wireAt` is the wire, its log aside, when an attempt begins.
-/

namespace DaemonRpc

namespace Establisher

variable (e : Establisher) (env : Surroundings) (w : Wire)

/-! ## One attempt -/

/-- How many attempts may be made. -/
def limit : Nat := (BackoffSchedule.ofConfig e.config).maxAttempts.toNat

/-- The probe of an attempt. -/
def probeAt (i : Nat) : Request where
  method := e.probe.wireName
  params := .none
  id := env.newId (w.sent + i)

/-- The id of the request before an attempt. -/
def previousAt : Nat → Option String
  | 0 => w.previous
  | i + 1 => some (env.newId (w.sent + i))

/-- How the transport deals with the probe of an attempt. -/
def exchangeAt (i : Nat) : Exchange :=
  env.transport
    { number := w.sent + i, previous := previousAt env w i, request := e.probeAt env w i }

/-- What the answer to the probe of an attempt means. -/
def outcomeAt (i : Nat) : Except Error Json :=
  receive (e.probeAt env w i).id (e.exchangeAt env w i).answer

/-- The milliseconds that are waited for before the probe of an attempt. -/
def waitBefore (i : Nat) : Nat :=
  Timer.millis ((BackoffSchedule.ofConfig e.config).delayFor (i + 1))

/-! ## Times -/

/-- When the probe of an attempt goes out, if nothing is cut off. -/
def askedAt : Nat → Nat
  | 0 => w.clock + e.waitBefore 0
  | i + 1 => askedAt i + (e.exchangeAt env w i).delay + e.waitBefore (i + 1)

/-- When the probe of an attempt is answered, if nothing is cut off. -/
def answeredAt (i : Nat) : Nat := e.askedAt env w i + (e.exchangeAt env w i).delay

/-- When an attempt begins, if nothing is cut off. -/
def begunAt : Nat → Nat
  | 0 => w.clock
  | i + 1 => e.answeredAt env w i

/-- The wait of an attempt is between its begin and its probe. -/
theorem begunAt_add_waitBefore (i : Nat) :
    e.begunAt env w i + e.waitBefore i = e.askedAt env w i := by
  cases i with
  | zero => rw [askedAt, begunAt]
  | succ i => rw [askedAt, begunAt, answeredAt]

theorem begunAt_le_askedAt (i : Nat) : e.begunAt env w i ≤ e.askedAt env w i := by
  rw [← begunAt_add_waitBefore]
  exact Nat.le_add_right _ _

theorem askedAt_le_answeredAt (i : Nat) : e.askedAt env w i ≤ e.answeredAt env w i :=
  Nat.le_add_right _ _

theorem begunAt_mono {i j : Nat} (h : i ≤ j) : e.begunAt env w i ≤ e.begunAt env w j := by
  induction h with
  | refl => exact Nat.le_refl _
  | step _ ih =>
    rename_i j _
    have hasked := e.begunAt_le_askedAt env w j
    rw [begunAt, answeredAt]
    omega

theorem clock_le_begunAt (i : Nat) : w.clock ≤ e.begunAt env w i :=
  e.begunAt_mono env w (Nat.zero_le i)

theorem askedAt_le_begunAt {i j : Nat} (h : i < j) : e.askedAt env w i ≤ e.begunAt env w j := by
  have hnext : e.begunAt env w (i + 1) ≤ e.begunAt env w j := e.begunAt_mono env w h
  rw [begunAt, answeredAt] at hnext
  omega

theorem askedAt_mono {i j : Nat} (h : i ≤ j) : e.askedAt env w i ≤ e.askedAt env w j := by
  rcases Nat.lt_or_eq_of_le h with hlt | rfl
  · exact le_trans (e.askedAt_le_begunAt env w hlt) (e.begunAt_le_askedAt env w j)
  · exact le_rfl

/-- Whether the caller has cancelled when an attempt begins, at once or as a probe arrived. -/
def flaggedAt : Nat → Bool
  | 0 => w.cancelled
  | i + 1 => flaggedAt i || (e.exchangeAt env w i).cancels

/-- The first probes, each with its time. -/
def probes (n : Nat) : List (Request × Nat) :=
  (List.range n).map fun i => (e.probeAt env w i, e.askedAt env w i)

/-- The wire when an attempt begins, its log aside. -/
def wireAt (n : Nat) : Wire where
  clock := e.begunAt env w n
  cancelled := e.flaggedAt env w n
  cancelAt := w.cancelAt
  sent := w.sent + n
  previous := previousAt env w n
  journal := ((e.probes env w n).map fun (request, time) => .sent request time).reverse ++
    w.quiet.journal

/-- The wire with the probe of an attempt on its way, its log aside. -/
def askedWire (i : Nat) : Wire := (e.wireAt env w (i + 1)).atTime (e.askedAt env w i)

@[simp] theorem clock_wireAt (i : Nat) : (e.wireAt env w i).clock = e.begunAt env w i := rfl

@[simp] theorem cancelAt_wireAt (i : Nat) : (e.wireAt env w i).cancelAt = w.cancelAt := by
  simp only [wireAt]

/-- The answer to a probe is the end of its attempt. -/
theorem askedWire_answeredAt (i : Nat) :
    (e.askedWire env w i).atTime (e.answeredAt env w i) = e.wireAt env w (i + 1) := by
  exact (e.wireAt env w (i + 1)).atTime_clock

@[simp] theorem requests_wireAt (n : Nat) :
    (e.wireAt env w n).requests = w.requests ++ e.probes env w n := by
  rw [← Wire.requests_quiet w]
  simp only [Wire.requests, wireAt, List.reverse_append, List.reverse_reverse,
    List.filterMap_append, List.filterMap_map]
  congr 1
  exact List.filterMap_some

@[simp] theorem handling_wireAt (n : Nat) : (e.wireAt env w n).handling = w.handling := by
  have hnone : ((e.probes env w n).map fun (request, time) => Event.sent request time).filter
      Event.isHandling = [] := by
    apply List.filter_eq_nil_iff.2
    intro event hevent
    obtain ⟨probe, -, rfl⟩ := List.mem_map.1 hevent
    simp [Event.isHandling]
  rw [← Wire.handling_quiet w]
  simp only [Wire.handling, wireAt, List.reverse_append, List.reverse_reverse,
    List.filter_append]
  rw [hnone, List.append_nil]

/-- The probe of an attempt as it is sent: the request, what the transport makes of it, and the
wire afterwards. -/
theorem send_askedAt {i : Nat} {v : Wire}
    (hv : v.quiet = (e.wireAt env w i).atTime (e.askedAt env w i)) :
    ∃ after, v.send env e.probe.wireName .none =
        (e.probeAt env w i, e.exchangeAt env w i, after) ∧
      after.quiet = e.askedWire env w i := by
  obtain ⟨hclock, hcancelled, -, hsent, hprevious⟩ := Wire.fields_of_quiet hv
  simp only [Wire.clock_atTime, Wire.cancelled_atTime, Wire.sent_atTime, Wire.previous_atTime,
    wireAt] at hclock hcancelled hsent hprevious
  obtain ⟨request, exchange, after, hsend, hrequest, hexchange, hafter⟩ :=
    Wire.quiet_send env v e.probe.wireName .none
  have hprobe : request = e.probeAt env w i := by rw [hrequest, hsent, probeAt]
  have hanswer : exchange = e.exchangeAt env w i := by
    rw [hexchange, hprobe, hsent, hprevious, exchangeAt]
  refine ⟨after, by rw [hsend, hprobe, hanswer], ?_⟩
  rw [hafter, hanswer, hprobe, hv, hsent, hclock, hcancelled]
  simp only [askedWire, Wire.atTime, wireAt, flaggedAt, previousAt, probes, probeAt,
    List.range_succ, List.map_append, List.reverse_append]
  rfl

end Establisher

end DaemonRpc
