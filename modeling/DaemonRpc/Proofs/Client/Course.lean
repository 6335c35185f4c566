import DaemonRpc.Proofs.Client.Attempts

/-!
# How an establishment goes

`Establishment.Course` lists the ways in which an establishment can end, each with what has to
be the case for it and with the wire that it leaves, the log aside.  `run_course` shows that
there are no others, whatever the transport answers and whenever the caller cancels.

* `Reached` is what is known when an attempt begins, and `At` ties an establishment under way
  to a stage and a wire.
* `announce_spec`, `wait_spec` and `ask_spec` are what one step does.
* `ended_runFor` is the induction over the attempts that are left, and `run_course` the whole
  establishment.
-/

namespace DaemonRpc

namespace Establisher

/-- The wire after an ending: a failure terminates the process that was handed over. -/
def leave (e : Establisher) (ending : Ending) (v : Wire) : Wire :=
  match ending, e.process with
  | .failed _, some _ => v.terminate
  | _, _ => v

@[simp] theorem requests_leave (e : Establisher) (ending : Ending) (v : Wire) :
    (e.leave ending v).requests = v.requests := by
  unfold leave
  split
  · exact Wire.requests_terminate v
  · rfl

@[simp] theorem clock_leave (e : Establisher) (ending : Ending) (v : Wire) :
    (e.leave ending v).clock = v.clock := by
  unfold leave
  split <;> rfl

/-- What an ending does with the process that was handed over. -/
def disposal (e : Establisher) : Ending → List Event
  | .failed _ => if e.process.isSome then [.process .terminate, .released] else []
  | _ => []

/-- The process is terminated at a failure, and not touched otherwise. -/
@[simp] theorem handling_leave (e : Establisher) (ending : Ending) (v : Wire) :
    (e.leave ending v).handling = v.handling ++ e.disposal ending := by
  unfold leave disposal
  cases ending with
  | failed err =>
    cases e.process with
    | none => simp
    | some p => simp
  | connected client => simp
  | overflow => simp

/-- The three things that can be seen of the wire after an ending. -/
theorem views_of_leave {e : Establisher} {ending : Ending} {v after : Wire}
    (h : after.quiet = e.leave ending v) :
    after.requests = v.requests ∧ after.clock = v.clock ∧
      after.handling = v.handling ++ e.disposal ending := by
  refine ⟨?_, ?_, ?_⟩
  · rw [← Wire.requests_quiet, h, requests_leave]
  · obtain ⟨hclock, -⟩ := Wire.fields_of_quiet h
    rw [hclock, clock_leave]
  · rw [← Wire.handling_quiet, h, handling_leave]

/-- The client of an establishment whose probe had the given result. -/
def clientOf (e : Establisher) (v : Json) : Client where
  config := e.config
  status := match (Shaped.decode v : Except ShapeFault DaemonStatus) with
    | .ok status => status
    | .error _ => Model.absent DaemonStatus
  process := e.process

end Establisher

namespace Establishment

open Establisher

variable (e : Establisher) (env : Surroundings) (w : Wire)

/-! ## The ways to go -/

/-- The first attempts have failed. -/
def Missed (n : Nat) : Prop := ∀ i < n, ∃ err, e.outcomeAt env w i = .error err

/-- The caller had not cancelled at first, and has not cut off any wait until the given
time. -/
def Undisturbed (time : Nat) : Prop :=
  w.cancelled = false ∧ ∀ t ∈ w.cancelAt, time ≤ max w.clock t

/-- What is known when an attempt begins. -/
structure Reached (i : Nat) : Prop where
  within : i < e.limit
  missed : Missed e env w i
  undisturbed : i = 0 ∨ Undisturbed w (e.begunAt env w i)

/-- The answer to the probe of an attempt is the end of the establishment. -/
inductive Concludes (i : Nat) : Ending → Prop where
  | connected {v : Json} (answer : e.outcomeAt env w i = .ok v) :
      Concludes i (.connected (e.clientOf v))
  | exhausted {err : Error} (answer : e.outcomeAt env w i = .error err) (last : i + 1 = e.limit) :
      Concludes i (.failed (.unreachable (.ofNat (i + 1)) err))

/-- An ending of an establishment that begins on `w`, and the wire just before. -/
inductive Course : Ending → Wire → Prop where
  | concluded {i : Nat} {ending : Ending} (reached : Reached e env w i)
      (undisturbed : Undisturbed w (e.answeredAt env w i))
      (concludes : Concludes e env w i ending) :
      Course ending (e.wireAt env w (i + 1))
  | cutWaiting {i time : Nat} (reached : Reached e env w i)
      (cut : (e.wireAt env w i).CutAt (e.askedAt env w i) time) :
      Course (.failed (.cancelled (.ofNat i))) ((e.wireAt env w i).atTime time).cancelNow
  | cutAsking {i time : Nat} (reached : Reached e env w i)
      (undisturbed : Undisturbed w (e.askedAt env w i))
      (cut : (e.askedWire env w i).CutAt (e.answeredAt env w i) time) :
      Course (.failed (.cancelled (.ofNat (i + 1)))) ((e.askedWire env w i).atTime time).cancelNow
  | overflow {i : Nat} (reached : Reached e env w i)
      (beyond : Duration.maximum.toNanos < (BackoffSchedule.ofConfig e.config).nanosUpTo (i + 1)) :
      Course .overflow ((e.wireAt env w i).atTime (e.askedAt env w i))

/-- An establishment under way: the stage, the attempts that it has waited for, and the wire,
the log aside. -/
structure At (stage : Stage) (waits : Nat) (v : Wire) (r : Establishment) : Prop where
  stage : r.stage = stage
  attempts : r.stats.attempts = .ofNat waits
  totalDelay : r.stats.totalDelay.toNanos = (BackoffSchedule.ofConfig e.config).nanosUpTo waits
  wire : r.wire.quiet = v

/-- An establishment that has ended. -/
def Ended (r : Establishment) : Prop :=
  ∃ ending v, r.stage = .over ending ∧ Course e env w ending v ∧ r.wire.quiet = e.leave ending v

variable {e env w} {r : Establishment}

/-! ## The helpers of a step -/

@[simp] theorem stats_enter (r : Establishment) (next : EstablishState) :
    (r.enter next).stats = r.stats := by
  rw [enter]
  split <;> rfl

@[simp] theorem quiet_enter (r : Establishment) (next : EstablishState) :
    (r.enter next).wire.quiet = r.wire.quiet := by
  rw [enter]
  split <;> rfl

@[simp] theorem stats_fail (e : Establisher) (r : Establishment) : (fail e r).stats = r.stats := by
  rw [fail]
  split
  · exact stats_enter r _
  · dsimp only
    split
    · exact stats_enter r _
    · exact stats_enter r _

/-- A failure terminates the process, and no more is seen of it. -/
theorem quiet_fail (e : Establisher) (r : Establishment) (err : Error) :
    (fail e r).wire.quiet = e.leave (.failed err) r.wire.quiet := by
  cases hprocess : e.process with
  | none =>
    simp only [fail, leave, hprocess]
    exact quiet_enter r _
  | some p =>
    simp only [fail, leave, hprocess]
    split
    · rw [Wire.quiet_terminate, quiet_enter]
    · rw [log, Wire.quiet_log, Wire.quiet_terminate, quiet_enter]

/-- The ending of a caller who cancels. -/
theorem abandon_spec (e : Establisher) (r : Establishment) {waits : Nat}
    (hattempts : r.stats.attempts = .ofNat waits) :
    (abandon e r).stage = .over (.failed (.cancelled (.ofNat waits))) ∧
      (abandon e r).wire.quiet =
        e.leave (.failed (.cancelled (.ofNat waits))) r.wire.quiet := by
  refine ⟨?_, ?_⟩
  · rw [← hattempts]
    rfl
  · rw [abandon, finish]
    exact quiet_fail e _ _

/-! ## The steps of an attempt -/

/-- Announcing an attempt is a line of the log. -/
theorem announce_spec (env : Surroundings) {attempt : UInt32} {waits : Nat} {v : Wire}
    (h : At e (.announcing attempt) waits v r) :
    At e (.waiting attempt) waits v (step e env r) := by
  rw [step, h.stage]
  refine ⟨rfl, ?_, ?_, ?_⟩
  · exact (congrArg RetryStats.attempts (stats_enter r _)).trans h.attempts
  · exact (congrArg (·.totalDelay.toNanos) (stats_enter r _)).trans h.totalDelay
  · exact (quiet_enter r _).trans h.wire

theorem Reached.succ_le {i : Nat} (h : Reached e env w i) : i + 1 ≤ e.limit := h.within

/-- The delays up to an attempt that is reached are in range if all are. -/
theorem Reached.nanosUpTo_le {i : Nat} (h : Reached e env w i)
    (hfits : (BackoffSchedule.ofConfig e.config).Representable) :
    (BackoffSchedule.ofConfig e.config).nanosUpTo (i + 1) ≤ Duration.maximum.toNanos :=
  le_trans (BackoffSchedule.nanosUpTo_le h.succ_le) hfits

/-- The number of an attempt that may be made fits its type. -/
theorem toNat_ofNat_of_le_limit {n : Nat} (h : n ≤ e.limit) : (UInt32.ofNat n).toNat = n := by
  apply UInt32.toNat_ofNat_of_lt'
  have hlimit := (BackoffSchedule.ofConfig e.config).maxAttempts.toNat_lt_size
  rw [limit] at h
  omega

/-- A caller who has not cancelled when an attempt begins had not at first. -/
theorem cancelled_of_flaggedAt {i : Nat} (h : e.flaggedAt env w i = false) :
    w.cancelled = false := by
  induction i with
  | zero => exact h
  | succ i ih =>
    rw [flaggedAt, Bool.or_eq_false_iff] at h
    exact ih h.1

/-- An attempt that begins for a caller who had not cancelled was not disturbed. -/
theorem Reached.undisturbed_begunAt {i : Nat} (h : Reached e env w i)
    (hcancelled : w.cancelled = false) : Undisturbed w (e.begunAt env w i) := by
  rcases h.undisturbed with rfl | hundisturbed
  · exact ⟨hcancelled, fun t _ => Nat.le_max_left _ _⟩
  · exact hundisturbed

/-- One more wait that is not cut off. -/
theorem Undisturbed.wait {a b : Nat} (h : Undisturbed w a)
    (hlate : ∀ t ∈ w.cancelAt, b ≤ max a t) : Undisturbed w b := by
  refine ⟨h.1, fun t ht => ?_⟩
  have hfirst := h.2 t ht
  have hnext := hlate t ht
  omega

/-- Waiting before a probe ends the establishment, or leaves the probe to be sent. -/
theorem wait_spec {i : Nat} (hreached : Reached e env w i)
    (h : At e (.waiting (.ofNat (i + 1))) i (e.wireAt env w i) r) :
    Ended e env w (step e env r) ∨
      (Undisturbed w (e.askedAt env w i) ∧
        At e (.asking (.ofNat (i + 1))) (i + 1)
          ((e.wireAt env w i).atTime (e.askedAt env w i)) (step e env r)) := by
  obtain ⟨hclock, hcancelled, hcancelAt, -, -⟩ := Wire.fields_of_quiet h.wire
  rw [clock_wireAt] at hclock
  rw [cancelAt_wireAt] at hcancelAt
  have hdue : r.wire.clock + Timer.millis
      ((BackoffSchedule.ofConfig e.config).delayFor (i + 1)) = e.askedAt env w i := by
    rw [hclock, ← begunAt_add_waitBefore, waitBefore]
  rw [step, h.stage]
  simp only [wait, toNat_ofNat_of_le_limit hreached.succ_le]
  rcases Wire.sleep_cases r.wire ((BackoffSchedule.ofConfig e.config).delayFor (i + 1)) with
    ⟨hsleep, hflag, hlate⟩ | ⟨time, hsleep, hcut⟩
  · -- the wait comes to its end, and its delay is added or not
    rw [hcancelled] at hflag
    rw [hdue, hclock, hcancelAt] at hlate
    have hundisturbed := (hreached.undisturbed_begunAt (cancelled_of_flaggedAt hflag)).wait hlate
    have hquiet : (r.wire.atTime (e.askedAt env w i)).quiet =
        (e.wireAt env w i).atTime (e.askedAt env w i) := by
      rw [Wire.quiet_atTime, h.wire]
    rw [hsleep, hdue]
    by_cases hfits : (BackoffSchedule.ofConfig e.config).nanosUpTo (i + 1) ≤
        Duration.maximum.toNanos
    · obtain ⟨total, hadd, htotal⟩ := BackoffSchedule.add?_delayFor_of_le h.totalDelay hfits
      refine Or.inr ⟨hundisturbed, ?_⟩
      simp only [if_true, hadd]
      exact ⟨rfl, rfl, htotal, hquiet⟩
    · have hover := Nat.lt_of_not_le hfits
      have hadd := BackoffSchedule.add?_delayFor_of_lt h.totalDelay hover
      simp only [if_true, hadd]
      exact Or.inl ⟨.overflow, _, rfl, .overflow hreached hover, hquiet⟩
  · rw [hsleep]
    have hcut : (e.wireAt env w i).CutAt (e.askedAt env w i) time := by
      rw [← hdue, ← h.wire, Wire.cutAt_quiet]
      exact hcut
    obtain ⟨hstage, hquiet⟩ := abandon_spec e
      { r with wire := (r.wire.atTime time).cancelNow } h.attempts
    rw [Wire.quiet_cancelNow, Wire.quiet_atTime, h.wire] at hquiet
    exact Or.inl ⟨_, _, hstage, .cutWaiting hreached hcut, hquiet⟩

/-- A probe that was answered with a result connects. -/
theorem connect_spec (e : Establisher) (r : Establishment) (v : Json) :
    (connect e v r).stage = .over (.connected (e.clientOf v)) ∧
      (connect e v r).wire.quiet = r.wire.quiet := by
  refine ⟨?_, ?_⟩
  · rw [connect, clientOf]
    cases (Shaped.decode v : Except ShapeFault DaemonStatus) with
    | ok _ => rfl
    | error _ => rfl
  · exact quiet_enter _ _

/-- The last of the probes that fail gives up. -/
theorem miss_spec_last {i : Nat} (err : Error) (hreached : Reached e env w i)
    (hlast : i + 1 = e.limit) (hattempts : r.stats.attempts = .ofNat (i + 1)) :
    (miss e (.ofNat (i + 1)) err r).stage = .over (.failed (.unreachable (.ofNat (i + 1)) err)) ∧
      (miss e (.ofNat (i + 1)) err r).wire.quiet =
        e.leave (.failed (.unreachable (.ofNat (i + 1)) err)) r.wire.quiet := by
  have hle : (BackoffSchedule.ofConfig e.config).maxAttempts ≤ .ofNat (i + 1) := by
    rw [UInt32.le_iff_toNat_le, toNat_ofNat_of_le_limit hreached.succ_le, hlast]
    exact Nat.le_refl _
  rw [miss]
  simp only [hle, if_true]
  refine ⟨?_, ?_⟩
  · rw [← hattempts, giveUp]
    simp only [finish, log, stats_fail]
  · rw [giveUp]
    simp only [finish, log, Wire.quiet_log]
    exact quiet_fail e _ _

/-- Any other probe that fails leaves the next attempt. -/
theorem miss_spec_next {i waits : Nat} {stage : Stage} {v : Wire} (err : Error)
    (hreached : Reached e env w i) (hnext : i + 1 < e.limit) (h : At e stage waits v r) :
    At e (.announcing (.ofNat (i + 1 + 1))) waits v (miss e (.ofNat (i + 1)) err r) := by
  have hnot : ¬ (BackoffSchedule.ofConfig e.config).maxAttempts ≤ .ofNat (i + 1) := by
    rw [UInt32.le_iff_toNat_le, toNat_ofNat_of_le_limit hreached.succ_le]
    exact Nat.not_le_of_lt hnext
  rw [miss]
  simp only [hnot, if_false]
  exact ⟨by rw [UInt32.ofNat_add (i + 1) 1]; rfl, h.attempts, h.totalDelay, h.wire⟩

/-- The answer to a probe ends the establishment, or leaves the next attempt. -/
theorem answer_spec {i : Nat} {stage : Stage} (hreached : Reached e env w i)
    (hundisturbed : Undisturbed w (e.answeredAt env w i))
    (h : At e stage (i + 1) (e.wireAt env w (i + 1)) r) :
    match e.outcomeAt env w i with
    | .ok v => Ended e env w (connect e v r)
    | .error err =>
      Ended e env w (miss e (.ofNat (i + 1)) err r) ∨
        (Reached e env w (i + 1) ∧
          At e (.announcing (.ofNat (i + 1 + 1))) (i + 1) (e.wireAt env w (i + 1))
            (miss e (.ofNat (i + 1)) err r)) := by
  cases houtcome : e.outcomeAt env w i with
  | ok v =>
    obtain ⟨hstage, hquiet⟩ := connect_spec e r v
    rw [h.wire] at hquiet
    exact ⟨_, _, hstage, .concluded hreached hundisturbed (.connected houtcome), hquiet⟩
  | error err =>
    have hmissed : Missed e env w (i + 1) := by
      intro j hj
      rcases Nat.lt_succ_iff_lt_or_eq.1 hj with hlt | rfl
      · exact hreached.missed j hlt
      · exact ⟨err, houtcome⟩
    by_cases hlast : i + 1 = e.limit
    · obtain ⟨hstage, hquiet⟩ := miss_spec_last err hreached hlast h.attempts
      rw [h.wire] at hquiet
      exact Or.inl
        ⟨_, _, hstage, .concluded hreached hundisturbed (.exhausted houtcome hlast), hquiet⟩
    · have hnext : i + 1 < e.limit := by
        have := hreached.within
        omega
      exact Or.inr ⟨⟨hnext, hmissed, Or.inr hundisturbed⟩, miss_spec_next err hreached hnext h⟩

/-- Asking the daemon ends the establishment, or leaves the next attempt. -/
theorem ask_spec {i : Nat} (hreached : Reached e env w i)
    (hundisturbed : Undisturbed w (e.askedAt env w i))
    (h : At e (.asking (.ofNat (i + 1))) (i + 1)
      ((e.wireAt env w i).atTime (e.askedAt env w i)) r) :
    Ended e env w (step e env r) ∨
      (Reached e env w (i + 1) ∧
        At e (.announcing (.ofNat (i + 1 + 1))) (i + 1) (e.wireAt env w (i + 1))
          (step e env r)) := by
  obtain ⟨after, hsend, hafter⟩ := e.send_askedAt env w h.wire
  obtain ⟨hclock, -, hcancelAt, -, -⟩ := Wire.fields_of_quiet hafter
  rw [askedWire, Wire.clock_atTime] at hclock
  rw [askedWire, Wire.cancelAt_atTime, cancelAt_wireAt] at hcancelAt
  rw [step, h.stage]
  simp only [ask, hsend]
  rcases Wire.waitUntil_cases after (after.clock + (e.exchangeAt env w i).delay) with
    ⟨hwait, hlate⟩ | ⟨time, hwait, -, hcut⟩
  · -- the answer is taken
    rw [hclock, hcancelAt, ← answeredAt] at hlate
    have hdue : max after.clock (after.clock + (e.exchangeAt env w i).delay) =
        e.answeredAt env w i := by
      rw [hclock, Nat.max_eq_right (Nat.le_add_right _ _), answeredAt]
    have hquiet : (after.atTime (e.answeredAt env w i)).quiet = e.wireAt env w (i + 1) := by
      rw [Wire.quiet_atTime, hafter, askedWire_answeredAt]
    rw [hwait, hdue]
    have hat : At e (.asking (.ofNat (i + 1))) (i + 1) (e.wireAt env w (i + 1))
        { r with
          wire := (after.atTime (e.answeredAt env w i)).take (e.exchangeAt env w i).answer } :=
      ⟨h.stage, h.attempts, h.totalDelay, (Wire.quiet_take _ _).trans hquiet⟩
    have hanswered : Undisturbed w (e.answeredAt env w i) := hundisturbed.wait hlate
    have hanswer := answer_spec hreached hanswered hat
    cases houtcome : e.outcomeAt env w i with
    | ok v =>
      rw [houtcome] at hanswer
      rw [outcomeAt] at houtcome
      simp only [if_true, houtcome]
      exact Or.inl hanswer
    | error err =>
      rw [houtcome] at hanswer
      rw [outcomeAt] at houtcome
      simp only [if_true, houtcome]
      exact hanswer
  · rw [hwait]
    have hcut : (e.askedWire env w i).CutAt (e.answeredAt env w i) time := by
      rw [answeredAt, ← hclock, ← hafter, Wire.cutAt_quiet]
      exact hcut
    obtain ⟨hstage, hquiet⟩ := abandon_spec e
      { r with wire := (after.atTime time).cancelNow } h.attempts
    rw [Wire.quiet_cancelNow, Wire.quiet_atTime, hafter] at hquiet
    exact Or.inl ⟨_, _, hstage, .cutAsking hreached hundisturbed hcut, hquiet⟩

/-! ## The whole establishment -/

/-- The number of steps does not matter once an establishment is over. -/
theorem runFor_of_over {ending : Ending} (h : r.stage = .over ending) (n : Nat) :
    runFor e env n r = r := by
  cases n with
  | zero => rfl
  | succ n => rw [runFor, h]

theorem runFor_succ (n : Nat) (r : Establishment) :
    runFor e env (n + 1) r = runFor e env n (step e env r) := by
  rw [runFor]
  split
  · rename_i ending hover
    rw [step, hover, runFor_of_over hover]
  · rfl

theorem runFor_add (m n : Nat) (r : Establishment) :
    runFor e env (m + n) r = runFor e env n (runFor e env m r) := by
  induction m generalizing r with
  | zero =>
    rw [Nat.zero_add]
    rfl
  | succ m ih => rw [Nat.succ_add, runFor_succ, ih, runFor_succ]

/-- An establishment has one end, whenever one looks for it. -/
theorem runFor_eq_of_over {m n : Nat} {ending ending' : Ending}
    (h : (runFor e env m r).stage = .over ending)
    (h' : (runFor e env n r).stage = .over ending') : runFor e env m r = runFor e env n r := by
  rw [← runFor_of_over h n, ← runFor_add, Nat.add_comm, runFor_add, runFor_of_over h']

/-- An establishment that has ended stays so. -/
theorem Ended.runFor (h : Ended e env w r) (n : Nat) : Ended e env w (runFor e env n r) := by
  obtain ⟨ending, v, hover, hcourse, hwire⟩ := h
  rw [runFor_of_over hover]
  exact ⟨ending, v, hover, hcourse, hwire⟩

/-- The attempts from one that begins on come to an end. -/
theorem ended_runFor {i left : Nat} (hreached : Reached e env w i) (hleft : i + left = e.limit)
    (h : At e (.announcing (.ofNat (i + 1))) i (e.wireAt env w i) r) :
    Ended e env w (runFor e env (3 * left) r) := by
  induction left generalizing i r with
  | zero =>
    have := hreached.within
    omega
  | succ left ih =>
    -- announcing never ends it, so the second of the three steps is the first that can
    rw [Nat.mul_succ, runFor_succ, runFor_succ]
    rcases wait_spec hreached (announce_spec env h) with hended | ⟨hundisturbed, hasking⟩
    · exact hended.runFor _
    rw [runFor_succ]
    rcases ask_spec hreached hundisturbed hasking with hended | ⟨hnext, hannouncing⟩
    · exact hended.runFor _
    · exact ih hnext (by omega) hannouncing

/-- The first attempt can be reached. -/
theorem reached_zero (e : Establisher) (env : Surroundings) (w : Wire) : Reached e env w 0 :=
  ⟨BackoffSchedule.one_le_maxAttempts e.config, fun i hi => absurd hi (Nat.not_lt_zero i), .inl rfl⟩

/-- An establishment begins with its first attempt. -/
theorem at_start (e : Establisher) (env : Surroundings) (w : Wire) :
    At e (.announcing (.ofNat (0 + 1))) 0 (e.wireAt env w 0) (start e w) := by
  have hdelay : (start e w).stats.totalDelay.toNanos =
      (BackoffSchedule.ofConfig e.config).nanosUpTo 0 := by
    rw [BackoffSchedule.nanosUpTo_zero]
    exact Duration.toNanos_zero
  exact ⟨rfl, rfl, hdelay, rfl⟩

/-- The steps of an establishment suffice. -/
theorem ended_run (e : Establisher) (env : Surroundings) (w : Wire) :
    Ended e env w (run e env w) := by
  have hrun : run e env w = runFor e env (3 * e.limit) (start e w) := by rw [run, limit]
  rw [hrun]
  exact ended_runFor (reached_zero e env w) (Nat.zero_add _) (at_start e env w)

/-- What an establishment comes to is its last stage. -/
theorem establish_of_over {ending : Ending} (h : (run e env w).stage = .over ending) :
    e.establish env w = (ending, (run e env w).wire) := by
  rw [establish, h]

/-- Every establishment comes to an end, and in one of the ways of `Course`. -/
theorem run_course (e : Establisher) (env : Surroundings) (w : Wire) :
    ∃ ending after v, e.establish env w = (ending, after) ∧ Course e env w ending v ∧
      after.quiet = e.leave ending v := by
  obtain ⟨ending, v, hover, hcourse, hwire⟩ := ended_run e env w
  exact ⟨ending, _, v, establish_of_over hover, hcourse, hwire⟩

/-- Up to its ending an establishment leaves the process alone. -/
theorem Course.handling {ending : Ending} {v : Wire} (h : Course e env w ending v) :
    v.handling = w.handling := by
  cases h with
  | concluded _ _ _ => simp
  | cutWaiting _ _ => simp
  | cutAsking _ _ _ => simp [askedWire]
  | overflow _ _ => simp

/-- The client of an establishment has the process that was handed over. -/
theorem Course.process_eq {client : Client} {v : Wire}
    (h : Course e env w (.connected client) v) : client.process = e.process := by
  cases h with
  | concluded _ _ concludes =>
    cases concludes with
    | connected _ => rfl

/-- The sum of the delays is no obstacle if it can be represented. -/
theorem Course.ne_overflow {ending : Ending} {v : Wire} (h : Course e env w ending v)
    (hfits : (BackoffSchedule.ofConfig e.config).Representable) : ending ≠ .overflow := by
  intro hoverflow
  subst hoverflow
  cases h with
  | concluded _ _ concludes => cases concludes
  | overflow reached beyond =>
    exact absurd (reached.nanosUpTo_le hfits) (Nat.not_le_of_lt beyond)

end Establishment

end DaemonRpc
