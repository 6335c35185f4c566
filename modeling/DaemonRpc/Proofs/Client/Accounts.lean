import DaemonRpc.Proofs.Client.Establishment

/-!
# The account of an establishment

An establishment keeps statistics of what it did: how many attempts it has waited for, how long it
has waited for them in all, and whether a probe succeeded.

* `Tallied` is what the statistics say at each stage, and `Accounted` adds that the waits up to
  now are the exact sum of their delays.
* `accounted_step` keeps that from step to step, and `accounted_runFor` over any number of them.
* `over_of_representable` and `over_of_not_representable` are the two ways in which an establishment
  ends whose probes all fail: the sum of the delays is in range, or the account breaks off.
* `delays_accounted` compares the account with the plan.
-/

namespace DaemonRpc.Establishment

open Establisher

variable {e : Establisher} {env : Surroundings} {w : Wire} {r : Establishment}

/-! ## The invariant -/

/-- What was waited for, in all, is the sum of the delays of the attempts that were waited for. -/
def Summed (e : Establisher) (stats : RetryStats) : Prop :=
  stats.totalDelay.toNanos =
    (BackoffSchedule.ofConfig e.config).nanosUpTo stats.attempts.toNat

/-- What the statistics say at a stage: the attempts that were waited for are those before the
present one, and from its probe on that one too. -/
def Tallied (e : Establisher) (stats : RetryStats) : Stage → Prop
  | .announcing attempt | .waiting attempt =>
    stats.success = false ∧ attempt.toNat = stats.attempts.toNat + 1 ∧ attempt.toNat ≤ e.limit
  | .asking attempt =>
    stats.success = false ∧ attempt = stats.attempts ∧ attempt.toNat ≤ e.limit
  | .over (.connected _) => stats.success = true
  | .over (.failed err) =>
    stats.success = false ∧ ∀ attempts last, err = .unreachable attempts last →
      attempts = stats.attempts ∧ attempts.toNat = e.limit
  | .over .overflow =>
    stats.success = false ∧ Duration.maximum.toNanos <
      (BackoffSchedule.ofConfig e.config).nanosUpTo (stats.attempts.toNat + 1)

/-- The statistics of an establishment are in order. -/
structure Accounted (e : Establisher) (r : Establishment) : Prop where
  summed : Summed e r.stats
  tallied : Tallied e r.stats r.stage

theorem accounted_start (e : Establisher) (w : Wire) : Accounted e (start e w) where
  summed := by
    show Duration.zero.toNanos = (BackoffSchedule.ofConfig e.config).nanosUpTo 0
    rw [Duration.toNanos_zero, BackoffSchedule.nanosUpTo_zero]
  tallied := ⟨rfl, rfl, BackoffSchedule.one_le_maxAttempts e.config⟩

/-! ## One step -/

/-- Who stops because the caller cancels accounts for nothing more. -/
theorem accounted_abandon (hsummed : Summed e r.stats) (hsuccess : r.stats.success = false) :
    Accounted e (abandon e r) := by
  have hstats : (abandon e r).stats = r.stats := stats_fail e _
  have hstage : (abandon e r).stage = .over (.failed (.cancelled r.stats.attempts)) := rfl
  refine ⟨hstats ▸ hsummed, ?_⟩
  rw [hstats, hstage]
  exact ⟨hsuccess, fun _ _ hunreachable => absurd hunreachable (by simp)⟩

/-- Who gives up has waited for all attempts. -/
theorem accounted_giveUp (last : Error) (hsummed : Summed e r.stats)
    (hsuccess : r.stats.success = false) (hlimit : r.stats.attempts.toNat = e.limit) :
    Accounted e (giveUp e last r) := by
  have hstats : (giveUp e last r).stats = r.stats := stats_fail e r
  have hstage : (giveUp e last r).stage =
      .over (.failed (.unreachable (fail e r).stats.attempts last)) := rfl
  refine ⟨hstats ▸ hsummed, ?_⟩
  rw [hstats, hstage, stats_fail]
  refine ⟨hsuccess, fun attempts _ hunreachable => ?_⟩
  obtain ⟨rfl, -⟩ := Error.unreachable.inj hunreachable
  exact ⟨rfl, hlimit⟩

/-- A probe that failed ends the last attempt, or leads to the next. -/
theorem accounted_miss {attempt : UInt32} (err : Error) (hsummed : Summed e r.stats)
    (hsuccess : r.stats.success = false) (hattempt : attempt = r.stats.attempts)
    (hwithin : attempt.toNat ≤ e.limit) : Accounted e (miss e attempt err r) := by
  unfold miss
  dsimp only
  split
  · rename_i hlast
    rw [UInt32.le_iff_toNat_le] at hlast
    refine accounted_giveUp err hsummed hsuccess ?_
    show r.stats.attempts.toNat = e.limit
    rw [← hattempt]
    exact Nat.le_antisymm hwithin hlast
  · rename_i hnot
    rw [UInt32.le_iff_toNat_le] at hnot
    -- there is a greater number of attempts, so that the next one is a number too
    have hbound := (BackoffSchedule.ofConfig e.config).maxAttempts.toNat_lt_size
    have hnext : (attempt + 1).toNat = attempt.toNat + 1 := by
      rw [UInt32.toNat_add, Nat.mod_eq_of_lt]
      · rfl
      · show attempt.toNat + 1 < UInt32.size
        omega
    refine ⟨hsummed, hsuccess, ?_, ?_⟩
    · rw [hnext, hattempt]
      rfl
    · rw [hnext]
      exact Nat.lt_of_not_le hnot

theorem accounted_announce {attempt : UInt32} (h : Accounted e r)
    (hstage : r.stage = .announcing attempt) : Accounted e (announce e attempt r) := by
  have htallied := h.tallied
  rw [hstage] at htallied
  have hstats : (announce e attempt r).stats = r.stats := stats_enter r _
  refine ⟨hstats ▸ h.summed, ?_⟩
  rw [hstats]
  exact htallied

theorem accounted_wait {attempt : UInt32} (h : Accounted e r)
    (hstage : r.stage = .waiting attempt) : Accounted e (wait e attempt r) := by
  have htallied := h.tallied
  rw [hstage] at htallied
  obtain ⟨hsuccess, hattempt, hwithin⟩ := htallied
  unfold wait
  dsimp only
  split
  · -- the wait came to its end, and its delay is added or not
    rw [hattempt]
    by_cases hfits : (BackoffSchedule.ofConfig e.config).nanosUpTo (r.stats.attempts.toNat + 1) ≤
        Duration.maximum.toNanos
    · obtain ⟨total, hadd, htotal⟩ := BackoffSchedule.add?_delayFor_of_le h.summed hfits
      rw [hadd]
      refine ⟨?_, hsuccess, rfl, hwithin⟩
      show total.toNanos = (BackoffSchedule.ofConfig e.config).nanosUpTo attempt.toNat
      rw [htotal, hattempt]
    · have hover := Nat.lt_of_not_le hfits
      rw [BackoffSchedule.add?_delayFor_of_lt h.summed hover]
      exact ⟨h.summed, hsuccess, hover⟩
  · exact accounted_abandon h.summed hsuccess

theorem accounted_ask {attempt : UInt32} (h : Accounted e r)
    (hstage : r.stage = .asking attempt) : Accounted e (ask e env attempt r) := by
  have htallied := h.tallied
  rw [hstage] at htallied
  obtain ⟨hsuccess, hattempt, hwithin⟩ := htallied
  unfold ask
  dsimp only
  split
  · split
    · rename_i v _
      have hstats : ∀ r' : Establishment,
          (connect e v r').stats = { r'.stats with success := true } :=
        fun r' => stats_enter _ _
      refine ⟨?_, ?_⟩
      · rw [hstats]
        exact h.summed
      · rw [hstats, (connect_spec e _ v).1]
        rfl
    · rename_i err _
      exact accounted_miss err h.summed hsuccess hattempt hwithin
  · exact accounted_abandon h.summed hsuccess

/-- A step keeps the statistics in order. -/
theorem accounted_step (env : Surroundings) (h : Accounted e r) : Accounted e (step e env r) := by
  unfold step
  split
  · rename_i hstage
    exact accounted_announce h hstage
  · rename_i hstage
    exact accounted_wait h hstage
  · rename_i hstage
    exact accounted_ask h hstage
  · exact h

/-- The statistics are in order at every moment, however the establishment goes. -/
theorem accounted_runFor (env : Surroundings) (n : Nat) (h : Accounted e r) :
    Accounted e (runFor e env n r) := by
  induction n generalizing r with
  | zero => exact h
  | succ n ih =>
    rw [runFor_succ]
    exact ih (accounted_step env h)

/-- No success is recorded before an establishment connects. -/
theorem Accounted.success_eq_false (h : Accounted e r)
    (hstage : ∀ client, r.stage ≠ .over (.connected client)) : r.stats.success = false := by
  have htallied := h.tallied
  match hr : r.stage with
  | .announcing _ =>
    rw [hr] at htallied
    exact htallied.1
  | .waiting _ =>
    rw [hr] at htallied
    exact htallied.1
  | .asking _ =>
    rw [hr] at htallied
    exact htallied.1
  | .over ending =>
    rw [hr] at htallied
    cases ending with
    | connected client => exact absurd hr (hstage client)
    | failed err => exact htallied.1
    | overflow => exact htallied.1

/-! ## Probes that all fail -/

/-- An establishment that nobody cancels, and whose probes all fail, gives up, or its account breaks
off. -/
theorem over_of_missed (henv : env.NeverCancels) (hw : w.Uncancelled)
    (hmissed : Missed e env w e.limit) :
    (∃ last, (run e env w).stage =
        .over (.failed (.unreachable (BackoffSchedule.ofConfig e.config).maxAttempts last))) ∨
      (run e env w).stage = .over .overflow ∧
        ¬ (BackoffSchedule.ofConfig e.config).Representable := by
  obtain ⟨ending, v, hover, hcourse, -⟩ := ended_run e env w
  have hfits := hcourse.ne_overflow
  cases hcourse with
  | concluded reached _ concludes =>
    cases concludes with
    | connected answer =>
      have hwithin := reached.within
      have hle := hmissed.le_of_ok answer
      omega
    | exhausted _ last =>
      rw [last, limit, UInt32.ofNat_toNat] at hover
      exact Or.inl ⟨_, hover⟩
  | cutWaiting _ cut => exact absurd cut (not_cutAt_wireAt henv hw)
  | cutAsking _ _ cut => exact absurd cut (not_cutAt_askedWire henv hw)
  | overflow _ _ => exact Or.inr ⟨hover, fun hrepresentable => hfits hrepresentable rfl⟩

/-- If the sum of all delays is in range, an establishment gives up after its last probe. -/
theorem over_of_representable (henv : env.NeverCancels) (hw : w.Uncancelled)
    (hmissed : Missed e env w e.limit)
    (hfits : (BackoffSchedule.ofConfig e.config).Representable) :
    ∃ last, (run e env w).stage =
      .over (.failed (.unreachable (BackoffSchedule.ofConfig e.config).maxAttempts last)) := by
  rcases over_of_missed henv hw hmissed with hunreachable | ⟨-, hnot⟩
  · exact hunreachable
  · exact absurd hfits hnot

/-- If the sum of all delays is out of range, the account breaks off: no establishment that gives
up could have added them all. -/
theorem over_of_not_representable (henv : env.NeverCancels) (hw : w.Uncancelled)
    (hmissed : Missed e env w e.limit)
    (hover : ¬ (BackoffSchedule.ofConfig e.config).Representable) :
    (run e env w).stage = .over .overflow := by
  rcases over_of_missed henv hw hmissed with ⟨last, hunreachable⟩ | ⟨hoverflow, -⟩
  · have haccounted : Accounted e (run e env w) :=
      accounted_runFor env _ (accounted_start e w)
    have htallied := haccounted.tallied
    rw [hunreachable] at htallied
    obtain ⟨hattempts, -⟩ := htallied.2 _ _ rfl
    have hsummed := haccounted.summed
    rw [Summed, ← hattempts] at hsummed
    refine absurd ?_ hover
    rw [BackoffSchedule.Representable, ← hsummed]
    exact Duration.toNanos_le_maximum _
  · exact hoverflow

/-- An establishment that nobody cancels, and whose probes all fail.  At every moment its account is
the sum of the delays of the attempts that it has waited for, as they are planned.  If the sum of
all delays is in range, the establishment gives up with the whole plan in its account.  If it is
not, the plan stays at the longest span, and the establishment breaks off at the first delay that
cannot be added. -/
theorem delays_accounted (henv : env.NeverCancels) (hw : w.Uncancelled)
    (hmissed : Missed e env w e.limit) :
    let schedule := BackoffSchedule.ofConfig e.config
    (∀ n, let stats := (runFor e env n (start e w)).stats
      stats.totalDelay.toNanos =
          ∑ i ∈ Finset.range stats.attempts.toNat, (schedule.delayFor (i + 1)).toNanos ∧
        stats.totalDelay = schedule.delayUpTo stats.attempts.toNat ∧ stats.success = false) ∧
    (schedule.Representable →
      (∃ last, e.establish env w =
          (.failed (.unreachable schedule.maxAttempts last), (run e env w).wire)) ∧
        (run e env w).stats.totalDelay = schedule.totalDelay ∧
        (run e env w).stats.attempts = schedule.maxAttempts) ∧
    (¬ schedule.Representable →
      e.establish env w = (.overflow, (run e env w).wire) ∧
        schedule.totalDelay = .maximum ∧
        schedule.nanosUpTo (run e env w).stats.attempts.toNat ≤ Duration.maximum.toNanos ∧
        Duration.maximum.toNanos <
          schedule.nanosUpTo ((run e env w).stats.attempts.toNat + 1)) := by
  intro schedule
  have haccounted : ∀ n, Accounted e (runFor e env n (start e w)) :=
    fun n => accounted_runFor env n (accounted_start e w)
  have hrun : Accounted e (run e env w) := haccounted _
  refine ⟨?_, ?_, ?_⟩
  · intro n
    have hsummed := (haccounted n).summed
    have hle := Duration.toNanos_le_maximum (runFor e env n (start e w)).stats.totalDelay
    rw [hsummed] at hle
    refine ⟨?_, BackoffSchedule.eq_delayUpTo hsummed, ?_⟩
    · rw [← BackoffSchedule.nanosUpTo_eq_sum_delayFor hle]
      exact hsummed
    · apply (haccounted n).success_eq_false
      intro client hconnected
      -- it would still be connected at the end
      have hend : ∀ {ending}, (run e env w).stage = .over ending → ending = .connected client := by
        intro ending hover
        rw [run, ← runFor_eq_of_over hconnected hover, hconnected] at hover
        exact (Stage.over.inj hover).symm
      rcases over_of_missed henv hw hmissed with ⟨last, hover⟩ | ⟨hover, -⟩
      · exact absurd (hend hover) (by simp)
      · exact absurd (hend hover) (by simp)
  · intro hfits
    obtain ⟨last, hover⟩ := over_of_representable henv hw hmissed hfits
    have htallied := hrun.tallied
    rw [hover] at htallied
    obtain ⟨hattempts, -⟩ := htallied.2 _ _ rfl
    refine ⟨⟨last, establish_of_over hover⟩, ?_, hattempts.symm⟩
    rw [BackoffSchedule.eq_delayUpTo hrun.summed, ← hattempts]
    rfl
  · intro hbeyond
    have hover := over_of_not_representable henv hw hmissed hbeyond
    have htallied := hrun.tallied
    rw [hover] at htallied
    refine ⟨establish_of_over hover, BackoffSchedule.totalDelay_of_not_representable hbeyond, ?_,
      htallied.2⟩
    rw [← hrun.summed]
    exact Duration.toNanos_le_maximum _

open ConnectionConfig

/-- Two probes that are refused, with a step of ten milliseconds. -/
theorem delays_accounted_refused :
    let e : Establisher :=
      { config := ofChanges default "" "" [.maxAttempts 2, .backoffStep (.ofMillis 10)] }
    (refusing 5).NeverCancels ∧ ({} : Wire).Uncancelled ∧ Missed e (refusing 5) {} e.limit ∧
      (∃ last after, e.establish (refusing 5) {} = (.failed (.unreachable 2 last), after)) ∧
        (run e (refusing 5) {}).stats.totalDelay = .ofMillis 30 ∧
        (run e (refusing 5) {}).stats.attempts = 2 ∧
        (run e (refusing 5) {}).stats.success = false := by
  intro e
  have henv : (refusing 5).NeverCancels := fun _ => rfl
  have hw : ({} : Wire).Uncancelled := ⟨rfl, rfl⟩
  have hmissed : Missed e (refusing 5) {} e.limit := fun i _ => ⟨_, rfl⟩
  have hfits : (BackoffSchedule.ofConfig e.config).Representable :=
    BackoffSchedule.representable_of_range (by decide)
  obtain ⟨hmoments, hends, -⟩ := delays_accounted henv hw hmissed
  obtain ⟨⟨last, hestablish⟩, htotal, hattempts⟩ := hends hfits
  have hplan : (BackoffSchedule.ofConfig e.config).totalDelay = .ofMillis 30 := by decide
  exact ⟨henv, hw, hmissed, ⟨last, _, hestablish⟩, htotal.trans hplan, hattempts,
    (hmoments _).2.2⟩

/-- Two probes that are refused, with the longest step there is: the second delay cannot be
added. -/
theorem overflow_two_longest_steps :
    let e : Establisher :=
      { config := ofChanges default "" "" [.maxAttempts 2, .backoffStep .maximum] }
    (refusing 0).NeverCancels ∧ ({} : Wire).Uncancelled ∧ Missed e (refusing 0) {} e.limit ∧
      (BackoffSchedule.ofConfig e.config).totalDelay = .maximum ∧
        (e.establish (refusing 0) {}).1 = .overflow := by
  intro e
  have henv : (refusing 0).NeverCancels := fun _ => rfl
  have hw : ({} : Wire).Uncancelled := ⟨rfl, rfl⟩
  have hmissed : Missed e (refusing 0) {} e.limit := fun i _ => ⟨_, rfl⟩
  have hbeyond : ¬ (BackoffSchedule.ofConfig e.config).Representable := by
    unfold BackoffSchedule.Representable
    decide
  refine ⟨henv, hw, hmissed, BackoffSchedule.totalDelay_of_not_representable hbeyond, ?_⟩
  rw [establish_of_over (over_of_not_representable henv hw hmissed hbeyond)]

end DaemonRpc.Establishment
