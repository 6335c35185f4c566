import DaemonRpc.Proofs.Client.Establishment

/-!
# Establishments that are cancelled

A caller who cancels at some time changes an establishment from that time on and not before.
`establish_cancelledAt` compares the run with the one that nobody cancels: it stops at once,
after the probes that the other has sent by then, unless the other was over already.

* The probes, the answers and their times are those of the other run.
* `Wire.CutAt.time_eq` says that a wait is cut off at that very time.
* `filter_probes` counts the probes that were sent before.
-/

namespace DaemonRpc

/-- The wire of a caller who cancels at the given time, which may have passed already. -/
def Wire.cancelledAt (w : Wire) (t : Nat) : Wire :=
  { w with cancelled := decide (t < w.clock), cancelAt := some t }

@[simp] theorem Wire.requests_cancelledAt (w : Wire) (t : Nat) :
    (w.cancelledAt t).requests = w.requests := rfl

@[simp] theorem Wire.handling_cancelledAt (w : Wire) (t : Nat) :
    (w.cancelledAt t).handling = w.handling := rfl

/-- If a caller cancels at a time, and a wait that began before is cut off, then that is why. -/
theorem Wire.CutAt.time_eq {v : Wire} {due time : Nat} (h : v.CutAt due time) (start : Nat)
    {t : Nat} (hcancelAt : v.cancelAt = some t) (hcancelled : v.cancelled = decide (t < start))
    (hstart : start ≤ v.clock) (hclock : v.clock ≤ max start t) (hdue : v.clock ≤ due) :
    t < due ∧ time = max start t := by
  rcases h with ⟨hflag, htime⟩ | ⟨hflag, t', ht', hlt, htime⟩
  · rw [hcancelled, decide_eq_true_eq] at hflag
    omega
  · rw [hcancelled, decide_eq_false_iff_not] at hflag
    rw [hcancelAt] at ht'
    obtain rfl := Option.some.inj ht'
    omega

namespace Establishment

open Establisher

variable {e : Establisher} {env : Surroundings} {w : Wire}

/-! ## The same attempts -/

/-- The transport does not notice when the caller is going to cancel. -/
@[simp] theorem exchangeAt_cancelledAt (t i : Nat) :
    e.exchangeAt env (w.cancelledAt t) i = e.exchangeAt env w i := by
  cases i with
  | zero => rfl
  | succ i => rfl

@[simp] theorem outcomeAt_cancelledAt (t i : Nat) :
    e.outcomeAt env (w.cancelledAt t) i = e.outcomeAt env w i := by
  rw [outcomeAt, outcomeAt, exchangeAt_cancelledAt]
  rfl

@[simp] theorem askedAt_cancelledAt (t i : Nat) :
    e.askedAt env (w.cancelledAt t) i = e.askedAt env w i := by
  induction i with
  | zero => rfl
  | succ i ih => rw [askedAt, askedAt, ih, exchangeAt_cancelledAt]

@[simp] theorem answeredAt_cancelledAt (t i : Nat) :
    e.answeredAt env (w.cancelledAt t) i = e.answeredAt env w i := by
  rw [answeredAt, answeredAt, askedAt_cancelledAt, exchangeAt_cancelledAt]

@[simp] theorem begunAt_cancelledAt (t i : Nat) :
    e.begunAt env (w.cancelledAt t) i = e.begunAt env w i := by
  cases i with
  | zero => rfl
  | succ i => rw [begunAt, begunAt, answeredAt_cancelledAt]

@[simp] theorem probes_cancelledAt (t n : Nat) :
    e.probes env (w.cancelledAt t) n = e.probes env w n := by
  simp only [probes, askedAt_cancelledAt]
  rfl

/-- An attempt that is reached when the caller cancels is reached when not. -/
theorem Reached.of_cancelledAt (hw : w.Uncancelled) {t i : Nat}
    (h : Reached e env (w.cancelledAt t) i) : Reached e env w i := by
  apply reached_of_uncancelled hw h.within
  intro j hj
  rw [← outcomeAt_cancelledAt t]
  exact h.missed j hj

/-- An attempt that concludes the establishment when the caller cancels does so when not. -/
theorem Concludes.of_cancelledAt {t i : Nat} {ending : Ending}
    (h : Concludes e env (w.cancelledAt t) i ending) : Concludes e env w i ending := by
  cases h with
  | connected answer => exact .connected (by rw [← outcomeAt_cancelledAt t, answer])
  | exhausted answer last => exact .exhausted (by rw [← outcomeAt_cancelledAt t, answer]) last

/-- No attempt is reached after the one that concludes the establishment. -/
theorem Concludes.reached_le {i j : Nat} {ending : Ending} (h : Concludes e env w i ending)
    (hj : Reached e env w j) : j ≤ i := by
  cases h with
  | connected answer => exact hj.missed.le_of_ok answer
  | exhausted answer last =>
    have hwithin := hj.within
    omega

/-- What goes on undisturbed is over when the caller cancels. -/
theorem Undisturbed.le_of_cancelledAt {t time : Nat} (h : Undisturbed (w.cancelledAt t) time) :
    time ≤ t := by
  have hnot : ¬ t < w.clock := by simpa [Wire.cancelledAt] using h.1
  have hle : time ≤ max w.clock t := h.2 t rfl
  omega

/-- An attempt begins before the caller cancels, or is the first. -/
theorem Reached.begunAt_le {t i : Nat} (h : Reached e env (w.cancelledAt t) i) :
    i = 0 ∨ e.begunAt env w i ≤ t := by
  rcases h.undisturbed with hfirst | hundisturbed
  · exact Or.inl hfirst
  · rw [← begunAt_cancelledAt t]
    exact Or.inr hundisturbed.le_of_cancelledAt

/-- Of the first probes those before a time are the first so many. -/
theorem filter_probes {t j n : Nat} (hle : j ≤ n) (hbefore : ∀ l < j, e.askedAt env w l < t)
    (hafter : ∀ l, j ≤ l → t ≤ e.askedAt env w l) :
    (e.probes env w n).filter (fun probe => probe.2 < t) = e.probes env w j := by
  obtain ⟨d, rfl⟩ := Nat.exists_eq_add_of_le hle
  rw [probes, List.range_add, List.map_append, List.filter_append, List.filter_eq_self.2,
    List.filter_eq_nil_iff.2, List.append_nil, probes]
  · intro probe hprobe
    simp only [List.map_map, List.mem_map, List.mem_range, Function.comp] at hprobe
    obtain ⟨l, -, rfl⟩ := hprobe
    have := hafter (j + l) (Nat.le_add_right _ _)
    simpa using this
  · intro probe hprobe
    simp only [List.mem_map, List.mem_range] at hprobe
    obtain ⟨l, hl, rfl⟩ := hprobe
    simpa using hbefore l hl

/-! ## Two runs -/

/-- An establishment that the caller stops at a time, after some probes. -/
structure StoppedAfter (e : Establisher) (env : Surroundings) (w : Wire) (t n : Nat)
    (ending : Ending) (after : Wire) : Prop where
  ending : ending = .failed (.cancelled (.ofNat n))
  requests : after.requests = w.requests ++ e.probes env w n
  clock : after.clock = max w.clock t
  handling : after.handling =
    w.handling ++ if e.process.isSome then [.process .terminate, .released] else []
  before : ∀ i < n, e.askedAt env w i ≤ t
  later : ∀ i, n ≤ i → t < e.askedAt env w i

/-- A caller who cancels while the establishment waits before a probe stops it there. -/
theorem stoppedAfter_of_cutWaiting (henv : env.NeverCancels) {t i time : Nat} {after : Wire}
    (hreached : Reached e env (w.cancelledAt t) i)
    (hcut : (e.wireAt env (w.cancelledAt t) i).CutAt (e.askedAt env (w.cancelledAt t) i) time)
    (hafter : after.quiet = e.leave (.failed (.cancelled (.ofNat i)))
      ((e.wireAt env (w.cancelledAt t) i).atTime time).cancelNow) :
    StoppedAfter e env w t i (.failed (.cancelled (.ofNat i))) after := by
  have hclock : e.begunAt env w i ≤ max w.clock t := by
    rcases hreached.begunAt_le with rfl | hle
    · exact Nat.le_max_left _ _
    · exact le_trans hle (Nat.le_max_right _ _)
  obtain ⟨hlt, rfl⟩ := hcut.time_eq w.clock (cancelAt_wireAt e env _ i)
    (flaggedAt_of_neverCancels henv i) (by simpa using e.clock_le_begunAt env w i)
    (by simpa using hclock) (by simpa using e.begunAt_le_askedAt env w i)
  rw [askedAt_cancelledAt] at hlt
  obtain ⟨hrequests, hclock, hhandling⟩ := views_of_leave hafter
  refine ⟨rfl, ?_, hclock, ?_, ?_, ?_⟩
  · rw [hrequests]
    simp
  · rw [hhandling]
    simp [disposal]
  · intro l hl
    rcases hreached.begunAt_le with rfl | hle
    · exact absurd hl (Nat.not_lt_zero l)
    · exact le_trans (e.askedAt_le_begunAt env w hl) hle
  · intro l hl
    exact lt_of_lt_of_le hlt (e.askedAt_mono env w hl)

/-- A caller who cancels while a probe is on its way stops the establishment there. -/
theorem stoppedAfter_of_cutAsking (henv : env.NeverCancels) {t i time : Nat} {after : Wire}
    (hundisturbed : Undisturbed (w.cancelledAt t) (e.askedAt env (w.cancelledAt t) i))
    (hcut : (e.askedWire env (w.cancelledAt t) i).CutAt (e.answeredAt env (w.cancelledAt t) i) time)
    (hafter : after.quiet = e.leave (.failed (.cancelled (.ofNat (i + 1))))
      ((e.askedWire env (w.cancelledAt t) i).atTime time).cancelNow) :
    t < e.answeredAt env w i ∧
      StoppedAfter e env w t (i + 1) (.failed (.cancelled (.ofNat (i + 1)))) after := by
  have hasked := hundisturbed.le_of_cancelledAt
  rw [askedAt_cancelledAt] at hasked
  have hstart := le_trans (e.clock_le_begunAt env w i) (e.begunAt_le_askedAt env w i)
  obtain ⟨hlt, rfl⟩ := hcut.time_eq w.clock (cancelAt_wireAt e env _ (i + 1))
    (flaggedAt_of_neverCancels henv (i + 1)) (by simpa [askedWire] using hstart)
    (by simpa [askedWire] using Or.inr hasked)
    (by simpa [askedWire] using e.askedAt_le_answeredAt env w i)
  rw [answeredAt_cancelledAt] at hlt
  obtain ⟨hrequests, hclock, hhandling⟩ := views_of_leave hafter
  refine ⟨hlt, rfl, ?_, hclock, ?_, ?_, ?_⟩
  · rw [hrequests]
    simp [askedWire]
  · rw [hhandling]
    simp [askedWire, disposal]
  · intro l hl
    exact le_trans (e.askedAt_mono env w (Nat.le_of_lt_succ hl)) hasked
  · intro l hl
    have hbegun : e.answeredAt env w i ≤ e.begunAt env w l := e.begunAt_mono env w hl
    exact lt_of_lt_of_le hlt (le_trans hbegun (e.begunAt_le_askedAt env w l))

/-- If an attempt concludes the establishment that nobody cancels, the cancelled one is stopped
before its answer, or concluded by it in the same way. -/
theorem establish_cancelledAt_cases (henv : env.NeverCancels) (hw : w.Uncancelled)
    (hfits : (BackoffSchedule.ofConfig e.config).Representable) {i : Nat} {ending : Ending}
    (hreached : Reached e env w i) (hconcludes : Concludes e env w i ending) (t : Nat) :
    ∃ ending' after, e.establish env (w.cancelledAt t) = (ending', after) ∧
      ((e.answeredAt env w i ≤ t ∧ ending' = ending ∧
          after.quiet = e.leave ending (e.wireAt env (w.cancelledAt t) (i + 1))) ∨
        t < e.answeredAt env w i ∧ ∃ n ≤ i + 1, StoppedAfter e env w t n ending' after) := by
  obtain ⟨ending', after, v, hrun, hcourse, hquiet⟩ := run_course e env (w.cancelledAt t)
  refine ⟨ending', after, hrun, ?_⟩
  cases hcourse with
  | concluded reached undisturbed concludes =>
    obtain ⟨rfl, rfl⟩ :=
      concludes.of_cancelledAt.unique (reached.of_cancelledAt hw) hreached hconcludes
    have hanswered := undisturbed.le_of_cancelledAt
    rw [answeredAt_cancelledAt] at hanswered
    exact Or.inl ⟨hanswered, rfl, hquiet⟩
  | @cutWaiting j _ reached cut =>
    have hle : j ≤ i := hconcludes.reached_le (reached.of_cancelledAt hw)
    have hstopped := stoppedAfter_of_cutWaiting henv reached cut hquiet
    have hlt : t < e.answeredAt env w i :=
      lt_of_lt_of_le (hstopped.later i hle) (e.askedAt_le_answeredAt env w i)
    exact Or.inr ⟨hlt, j, Nat.le_succ_of_le hle, hstopped⟩
  | @cutAsking j _ reached undisturbed cut =>
    have hle : j ≤ i := hconcludes.reached_le (reached.of_cancelledAt hw)
    obtain ⟨hlt, hstopped⟩ := stoppedAfter_of_cutAsking henv undisturbed cut hquiet
    have hbegun : e.answeredAt env w j ≤ e.answeredAt env w i :=
      e.begunAt_mono env w (Nat.succ_le_succ hle)
    exact Or.inr ⟨lt_of_lt_of_le hlt hbegun, j + 1, Nat.succ_le_succ hle, hstopped⟩
  | overflow reached beyond => exact absurd rfl ((Course.overflow reached beyond).ne_overflow hfits)

/-- The law of a caller who cancels at a time that is not the end of any wait.  If the run that
nobody cancels is over by then, both are the same.  If not, the cancelled one stops at that
time (or at its start, if that comes later), and has sent what the other sends before. -/
theorem establish_cancelledAt (henv : env.NeverCancels) (hw : w.Uncancelled)
    (hfits : (BackoffSchedule.ofConfig e.config).Representable) (t : Nat) :
    ∃ ending after ending' after' probes, e.establish env w = (ending, after) ∧
      e.establish env (w.cancelledAt t) = (ending', after') ∧
      after.requests = w.requests ++ probes ∧
      ((∀ i < probes.length, t ≠ e.askedAt env w i ∧ t ≠ e.answeredAt env w i) →
        (t < after.clock → ∃ attempts, ending' = .failed (.cancelled attempts) ∧
          after'.requests = w.requests ++ probes.filter (fun probe => probe.2 < t) ∧
          attempts.toNat = (probes.filter (fun probe => probe.2 < t)).length ∧
          after'.clock = max w.clock t ∧
          after'.handling = w.handling ++
            if e.process.isSome then [.process .terminate, .released] else []) ∧
        (after.clock < t → ending' = ending ∧ after'.requests = after.requests ∧
          after'.clock = after.clock ∧ after'.handling = after.handling)) := by
  obtain ⟨ending, after, i, hrun, hreached, hconcluded⟩ := establish_uncancelled henv hw (e := e)
  obtain ⟨hconcludes, hquiet⟩ :=
    hconcluded.resolve_right (Nat.not_lt_of_le (hreached.nanosUpTo_le hfits))
  obtain ⟨ending', after', hrun', hcases⟩ :=
    establish_cancelledAt_cases henv hw hfits hreached hconcludes t
  obtain ⟨hrequests, hclock, hhandling⟩ := views_of_leave hquiet
  have hclock : after.clock = e.answeredAt env w i := hclock
  refine ⟨ending, after, ending', after', e.probes env w (i + 1), hrun, hrun', ?_, ?_⟩
  · rw [hrequests, requests_wireAt]
  intro hapart
  have hlength : ∀ n, (e.probes env w n).length = n := fun n => by simp [probes]
  rw [hlength] at hapart
  rw [hclock]
  refine ⟨?_, ?_⟩
  · intro hlt
    obtain ⟨-, n, hn, hstopped⟩ := hcases.resolve_left (fun h => absurd h.1 (Nat.not_le_of_lt hlt))
    -- no probe goes out at `t` itself, so those up to `t` are those before it
    have hfilter : (e.probes env w (i + 1)).filter (fun probe => probe.2 < t) =
        e.probes env w n := by
      apply filter_probes hn
      · intro l hl
        exact lt_of_le_of_ne (hstopped.before l hl)
          (hapart l (lt_of_lt_of_le hl hn)).1.symm
      · intro l hl
        exact le_of_lt (hstopped.later l hl)
    rw [hfilter, hlength]
    exact ⟨_, hstopped.ending, hstopped.requests,
      toNat_ofNat_of_le_limit (le_trans hn hreached.succ_le), hstopped.clock, hstopped.handling⟩
  · intro hlt
    obtain ⟨-, rfl, hquiet'⟩ := hcases.resolve_right (fun h => absurd h.1 (Nat.not_lt_of_lt hlt))
    obtain ⟨hrequests', hclock', hhandling'⟩ := views_of_leave hquiet'
    refine ⟨rfl, ?_, ?_, ?_⟩
    · rw [hrequests', hrequests]
      simp
    · rw [hclock', clock_wireAt, begunAt_cancelledAt]
      rfl
    · rw [hhandling', hhandling]
      simp

/-- A caller who cancels in the second wait, five milliseconds after the first probe was
refused. -/
theorem establish_cancelledAt_second_wait :
    let e : Establisher :=
      { config := .ofChanges default "" "" [.maxAttempts 2, .backoffStep (.ofMillis 10)]
        process := some { exits := .ok true, terminates := .ok () } }
    (refusing 5).NeverCancels ∧ ({} : Wire).Uncancelled ∧
      (BackoffSchedule.ofConfig e.config).Representable ∧
      (∀ i < 2, 20 ≠ e.askedAt (refusing 5) {} i ∧ 20 ≠ e.answeredAt (refusing 5) {} i) ∧
      ∃ after, e.establish (refusing 5) (({} : Wire).cancelledAt 20) =
          (.failed (.cancelled 1), after) ∧
        after.requests.map Prod.snd = [10] ∧ after.clock = 20 ∧
        after.handling = [.process .terminate, .released] := by
  intro e
  have henv : (refusing 5).NeverCancels := fun _ => rfl
  have hw : ({} : Wire).Uncancelled := ⟨rfl, rfl⟩
  have hfits : (BackoffSchedule.ofConfig e.config).Representable := by
    unfold BackoffSchedule.Representable
    decide
  have hapart : ∀ i < 2,
      20 ≠ e.askedAt (refusing 5) {} i ∧ 20 ≠ e.answeredAt (refusing 5) {} i := by
    decide
  obtain ⟨ending, after, ending', after', probes, hrun, hrun', hrequests, hlaw⟩ :=
    establish_cancelledAt henv hw hfits 20
  have hclock : (e.establish (refusing 5) {}).2.clock = 40 := by decide
  have htimes : (e.establish (refusing 5) {}).2.requests.map Prod.snd = [10, 35] := by decide
  rw [hrun] at hclock htimes
  rw [hrequests] at htimes
  have htimes : probes.map Prod.snd = [10, 35] := htimes
  have hlength : probes.length = 2 := by simpa using congrArg List.length htimes
  have hsent : (probes.filter (fun probe => probe.2 < 20)).map Prod.snd = [10] := by
    have hfilter := List.filter_map (f := Prod.snd) (l := probes)
      (p := fun time => decide (time < 20))
    rw [htimes] at hfilter
    exact hfilter.symm
  obtain ⟨attempts, hending, hrequests', hattempts, hclock', hhandling⟩ :=
    (hlaw (by rw [hlength]; exact hapart)).1 (by rw [hclock]; decide)
  have hone : attempts = 1 := by
    apply UInt32.toNat_inj.1
    rw [hattempts]
    simpa using congrArg List.length hsent
  refine ⟨henv, hw, hfits, hapart, after', ?_, ?_, hclock', hhandling⟩
  · rw [hrun', hending, hone]
  · rw [hrequests']
    exact hsent

end Establishment

end DaemonRpc
