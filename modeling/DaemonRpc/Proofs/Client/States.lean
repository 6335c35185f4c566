import DaemonRpc.Proofs.Client.Establishment
import DaemonRpc.Proofs.Client.Records

/-!
# The states of an establishment

`Establishment.Standing` ties the state of an establishment, its statistics and what it has told
in its log to the stage that comes next.  It holds at first, and every step keeps it.

* `Recorded` is the record of an establishment under way, and `Closed` that of one that is over.
* `Standing.step` is one step, with `standing_wait` and `standing_ask` for the two that can end an
  establishment, and `Standing.runFor` any number of steps.
* `Standing.now` reads off what is known in each state; `InAttempt` is the part on attempts.
* `states_of_establish` is the course of the states from the idle one to the end.
-/

namespace DaemonRpc.Establishment

open Establisher

variable {r : Establishment}

/-! ## The invariant -/

section Invariant

variable (e : Establisher) (env : Surroundings) (w : Wire)

/-- What an establishment has recorded that has entered some attempts and missed some. -/
structure Recorded (entered misses : Nat) (r : Establishment) : Prop where
  state : r.state = stateAt entered
  transitions : r.wire.transitions = w.transitions ++ moves entered
  failures : r.wire.failures = w.failures ++ failuresUpTo e env w misses
  lastError : r.stats.lastError = (failuresUpTo e env w misses).getLast?.map (·.2.message)

/-- The last state that goes with an ending. -/
inductive Closes : EstablishState → Ending → Prop where
  | connected (client : Client) : Closes .connected (.connected client)
  | failed (err : Error) : Closes .failed (.failed err)

/-- An establishment that came to its end in some attempt, counted from one. -/
structure Closed (ending : Ending) (attempt : Nat) (last : EstablishState) (r : Establishment) :
    Prop where
  stage : r.stage = .over ending
  closes : Closes last ending
  one_le : 1 ≤ attempt
  within : attempt ≤ e.limit
  state : r.state = last
  transitions : r.wire.transitions = w.transitions ++ (moves attempt ++ [(stateAt attempt, last)])

/-- Where an establishment stands that has entered a number of attempts, by the stage that comes
next. -/
inductive Standing (r : Establishment) : Nat → Prop where
  | announcing {i : Nat} (reached : Reached e env w i)
      (current : At e (.announcing (.ofNat (i + 1))) i (e.wireAt env w i) r)
      (recorded : Recorded e env w i i r) : Standing r i
  | waiting {i : Nat} (reached : Reached e env w i)
      (current : At e (.waiting (.ofNat (i + 1))) i (e.wireAt env w i) r)
      (recorded : Recorded e env w (i + 1) i r) : Standing r (i + 1)
  | asking {i : Nat} (reached : Reached e env w i)
      (undisturbed : Undisturbed w (e.askedAt env w i))
      (current : At e (.asking (.ofNat (i + 1))) (i + 1)
        ((e.wireAt env w i).atTime (e.askedAt env w i)) r)
      (recorded : Recorded e env w (i + 1) i r) : Standing r (i + 1)
  | closed {ending : Ending} {attempt : Nat} {last : EstablishState}
      (closed : Closed e w ending attempt last r) : Standing r attempt
  | overflow {i entered : Nat} (stage : r.stage = .over .overflow) (reached : Reached e env w i)
      (beyond : Duration.maximum.toNanos < (BackoffSchedule.ofConfig e.config).nanosUpTo (i + 1)) :
      Standing r entered

end Invariant

variable {e : Establisher} {env : Surroundings} {w : Wire}

/-- A record does not change with what tells of no state and no failure. -/
theorem Recorded.of_sameRecords {entered misses : Nat} {later : Establishment}
    (h : Recorded e env w entered misses r) (hstate : later.state = r.state)
    (hwire : later.wire.SameRecords r.wire) (herror : later.stats.lastError = r.stats.lastError) :
    Recorded e env w entered misses later :=
  ⟨hstate.trans h.state, hwire.transitions.trans h.transitions, hwire.failures.trans h.failures,
    herror.trans h.lastError⟩

theorem Recorded.isTerminal {entered misses : Nat} (h : Recorded e env w entered misses r) :
    r.state.isTerminal = false := by
  rw [h.state, isTerminal_stateAt]

/-- The end of an attempt closes the record. -/
theorem Recorded.closed {i misses : Nat} {ending : Ending} {last : EstablishState}
    {after : Establishment} (h : Recorded e env w (i + 1) misses r) (hwithin : i < e.limit)
    (hclosing : Closing last r after) (hcloses : Closes last ending)
    (hstage : after.stage = .over ending) : Standing e env w after (i + 1) :=
  .closed
    { stage := hstage
      closes := hcloses
      one_le := Nat.succ_le_succ (Nat.zero_le i)
      within := hwithin
      state := hclosing.state
      transitions := by
        rw [hclosing.transitions, h.transitions, h.state, List.append_assoc] }

/-- An attempt is entered as it is announced. -/
theorem Recorded.announce {i misses : Nat} (h : Recorded e env w i misses r) :
    Recorded e env w (i + 1) misses (announce e (.ofNat (i + 1)) r) := by
  have hentered : Recorded e env w (i + 1) misses (r.enter (.attempting (.ofNat (i + 1)))) :=
    ⟨state_enter h.isTerminal,
      by rw [transitions_enter h.isTerminal, h.transitions, h.state, moves_succ,
        List.append_assoc, stateAt],
      (failures_enter r _).trans h.failures,
      (congrArg RetryStats.lastError (stats_enter r _)).trans h.lastError⟩
  exact hentered.of_sameRecords rfl (Wire.sameRecords_note _ rfl rfl) rfl

/-- A probe that fails is recorded, whatever comes of it. -/
theorem Recorded.noted {i entered : Nat} {err : Error} (h : Recorded e env w entered i r)
    (houtcome : e.outcomeAt env w i = .error err) :
    Recorded e env w entered (i + 1) (noted e (.ofNat (i + 1)) err r) := by
  refine ⟨h.state, ?_, ?_, ?_⟩
  · exact (Wire.transitions_log _ _).trans ((List.append_nil _).trans h.transitions)
  · have hline := Wire.failures_log r.wire (.attemptFailed (.ofNat (i + 1))
      (BackoffSchedule.ofConfig e.config).maxAttempts err)
    rw [h.failures, List.append_assoc] at hline
    rw [failuresUpTo_succ houtcome]
    exact hline
  · rw [failuresUpTo_succ houtcome, List.getLast?_concat]
    rfl

/-! ## One step -/

/-- An establishment that is cut off in an attempt has failed. -/
theorem Recorded.abandon {i misses : Nat} (h : Recorded e env w (i + 1) misses r)
    (hwithin : i < e.limit) : Standing e env w (abandon e r) (i + 1) :=
  h.closed hwithin (closing_abandon e h.isTerminal) (.failed _) rfl

/-- The wait before a probe. -/
theorem standing_wait {i : Nat} (hreached : Reached e env w i)
    (hcurrent : At e (.waiting (.ofNat (i + 1))) i (e.wireAt env w i) r)
    (hrecorded : Recorded e env w (i + 1) i r) : Standing e env w (step e env r) (i + 1) := by
  have hspec := wait_spec hreached hcurrent
  rw [step, hcurrent.stage] at hspec ⊢
  obtain ⟨v, hv, ⟨total, hasking⟩ | habandon | hoverflow⟩ :=
    wait_cases e (.ofNat (i + 1)) r
  · -- the wait came to its end
    rcases hspec with ⟨ending, _, hover, -, -⟩ | ⟨hundisturbed, hnext⟩
    · simp only [hasking] at hover
      cases hover
    · simp only [hasking] at hnext ⊢
      exact .asking hreached hundisturbed hnext (hrecorded.of_sameRecords rfl hv rfl)
  · simp only [habandon]
    have hkept : Recorded e env w (i + 1) i { r with wire := v } :=
      hrecorded.of_sameRecords rfl hv rfl
    exact hkept.abandon hreached.within
  · -- the delay could not be added, and only its size can be the reason
    rcases hspec with ⟨ending, _, hover, hcourse, -⟩ | ⟨-, hnext⟩
    · simp only [hoverflow] at hover ⊢
      obtain rfl : Ending.overflow = ending := Stage.over.inj hover
      cases hcourse with
      | concluded _ _ concludes => cases concludes
      | overflow reached beyond => exact .overflow rfl reached beyond
    · have hstage := hnext.stage
      simp only [hoverflow] at hstage
      cases hstage

/-- A probe that failed, if it is known how the establishment goes on. -/
theorem standing_miss {i : Nat} {err : Error} (hreached : Reached e env w i)
    (houtcome : e.outcomeAt env w i = .error err) (hrecorded : Recorded e env w (i + 1) i r)
    (hspec : Ended e env w (miss e (.ofNat (i + 1)) err r) ∨
      (Reached e env w (i + 1) ∧
        At e (.announcing (.ofNat (i + 1 + 1))) (i + 1) (e.wireAt env w (i + 1))
          (miss e (.ofNat (i + 1)) err r))) :
    Standing e env w (miss e (.ofNat (i + 1)) err r) (i + 1) := by
  have hnoted := hrecorded.noted houtcome
  rw [miss_eq] at hspec ⊢
  split at hspec
  · next hlast =>
    rw [if_pos hlast]
    exact hnoted.closed hreached.within (closing_giveUp e err hnoted.isTerminal) (.failed _) rfl
  · next hnot =>
    rw [if_neg hnot]
    rcases hspec with ⟨ending, _, hover, -, -⟩ | ⟨hnext, hcurrent⟩
    · cases hover
    · exact .announcing hnext hcurrent (hnoted.of_sameRecords rfl (.refl _) rfl)

/-- The probe. -/
theorem standing_ask {i : Nat} (hreached : Reached e env w i)
    (hundisturbed : Undisturbed w (e.askedAt env w i))
    (hcurrent : At e (.asking (.ofNat (i + 1))) (i + 1)
      ((e.wireAt env w i).atTime (e.askedAt env w i)) r)
    (hrecorded : Recorded e env w (i + 1) i r) : Standing e env w (step e env r) (i + 1) := by
  have hspec := ask_spec hreached hundisturbed hcurrent
  rw [step, hcurrent.stage] at hspec ⊢
  obtain ⟨v, hv, ⟨answer, -, hconnect⟩ | ⟨err, houtcome, hmiss⟩ | habandon⟩ :=
    ask_cases hcurrent
  · have hkept : Recorded e env w (i + 1) i { r with wire := v } :=
      hrecorded.of_sameRecords rfl hv rfl
    simp only [hconnect]
    exact hkept.closed hreached.within (closing_connect e answer hkept.isTerminal) (.connected _)
      (connect_spec e _ answer).1
  · simp only [hmiss] at hspec ⊢
    exact standing_miss hreached houtcome (hrecorded.of_sameRecords rfl hv rfl) hspec
  · simp only [habandon]
    have hkept : Recorded e env w (i + 1) i { r with wire := v } :=
      hrecorded.of_sameRecords rfl hv rfl
    exact hkept.abandon hreached.within

/-- Every step keeps the invariant, and none takes an attempt back. -/
theorem Standing.step {entered : Nat} (h : Standing e env w r entered) :
    ∃ entered', entered ≤ entered' ∧ Standing e env w (step e env r) entered' := by
  cases h with
  | announcing reached current recorded =>
    refine ⟨_, Nat.le_succ _, .waiting reached (announce_spec env current) ?_⟩
    rw [Establishment.step, current.stage]
    exact recorded.announce
  | waiting reached current recorded =>
    exact ⟨_, Nat.le_refl _, standing_wait reached current recorded⟩
  | asking reached undisturbed current recorded =>
    exact ⟨_, Nat.le_refl _, standing_ask reached undisturbed current recorded⟩
  | closed closed =>
    rw [Establishment.step, closed.stage]
    exact ⟨_, Nat.le_refl _, .closed closed⟩
  | overflow stage reached beyond =>
    rw [Establishment.step, stage]
    exact ⟨_, Nat.le_refl _, .overflow stage reached beyond⟩

/-- So does every run. -/
theorem Standing.runFor {entered : Nat} (h : Standing e env w r entered) (n : Nat) :
    ∃ entered', entered ≤ entered' ∧ Standing e env w (runFor e env n r) entered' := by
  induction n generalizing r entered with
  | zero => exact ⟨entered, Nat.le_refl _, h⟩
  | succ n ih =>
    obtain ⟨next, hle, hnext⟩ := h.step
    obtain ⟨entered', hle', hrun⟩ := ih hnext
    rw [runFor_succ]
    exact ⟨entered', Nat.le_trans hle hle', hrun⟩

theorem standing_start (e : Establisher) (env : Surroundings) (w : Wire) :
    Standing e env w (start e w) 0 := by
  have hwire : (start e w).wire.SameRecords w := Wire.sameRecords_note w rfl rfl
  refine .announcing (reached_zero e env w) (at_start e env w) ⟨rfl, ?_, ?_, rfl⟩
  · exact hwire.transitions.trans (List.append_nil _).symm
  · exact hwire.failures.trans (List.append_nil _).symm

/-! ## The course of the states -/

/-- The delays of the attempts that are reached can be added. -/
def DelaysFit (e : Establisher) (env : Surroundings) (w : Wire) : Prop :=
  ∀ i, Reached e env w i →
    (BackoffSchedule.ofConfig e.config).nanosUpTo (i + 1) ≤ Duration.maximum.toNanos

/-- So it is if the delays of all attempts can be. -/
theorem delaysFit_of_representable (env : Surroundings) (w : Wire)
    (h : (BackoffSchedule.ofConfig e.config).Representable) : DelaysFit e env w :=
  fun _ hreached => hreached.nanosUpTo_le h

/-- What an establishment has recorded in the state of an attempt.  Up to the end of the wait
before the probe the attempt is not counted, and then it is. -/
structure InAttempt (e : Establisher) (env : Surroundings) (w : Wire) (attempt : UInt32)
    (r : Establishment) : Prop where
  one_le : 1 ≤ attempt.toNat
  transitions : r.wire.transitions = w.transitions ++ moves attempt.toNat
  counted : (r.stage = .waiting attempt ∧ r.stats.attempts.toNat + 1 = attempt.toNat) ∨
    ((r.stage = .asking attempt ∨
        ∃ next, r.stage = .announcing next ∧ next.toNat = attempt.toNat + 1) ∧
      r.stats.attempts = attempt)
  /-- All earlier attempts failed, and perhaps this one. -/
  recorded : ∃ misses, attempt.toNat ≤ misses + 1 ∧ Missed e env w misses ∧
    r.wire.failures = w.failures ++ failuresUpTo e env w misses ∧
    r.stats.lastError = (failuresUpTo e env w misses).getLast?.map (·.2.message)

theorem Closes.isTerminal {last : EstablishState} {ending : Ending} (h : Closes last ending) :
    last.isTerminal = true := by
  cases h with
  | connected client => rfl
  | failed err => rfl

theorem Closes.connected_iff {last : EstablishState} {ending : Ending} (h : Closes last ending) :
    last = .connected ↔ ∃ client, ending = .connected client := by
  cases h with
  | connected client => simp
  | failed err => simp

theorem Closes.failed_iff {last : EstablishState} {ending : Ending} (h : Closes last ending) :
    last = .failed ↔ ∃ err, ending = .failed err := by
  cases h with
  | connected client => simp
  | failed err => simp

/-- The record of an establishment that has entered an attempt. -/
theorem Recorded.inAttempt {i misses : Nat} (h : Recorded e env w (i + 1) misses r)
    (hwithin : i < e.limit) (hmissed : Missed e env w misses) (hle : i ≤ misses)
    (hcounted : (r.stage = .waiting (.ofNat (i + 1)) ∧ r.stats.attempts = .ofNat i) ∨
      ((r.stage = .asking (.ofNat (i + 1)) ∨
          r.stage = .announcing (.ofNat (i + 1 + 1)) ∧ i + 1 < e.limit) ∧
        r.stats.attempts = .ofNat (i + 1))) :
    (UInt32.ofNat (i + 1)).toNat = i + 1 ∧ InAttempt e env w (.ofNat (i + 1)) r := by
  have hnumber : (UInt32.ofNat (i + 1)).toNat = i + 1 := toNat_ofNat_of_le_limit hwithin
  refine ⟨hnumber,
    { one_le := by omega
      transitions := by rw [hnumber, h.transitions]
      counted := ?_
      recorded := ⟨misses, by omega, hmissed, h.failures, h.lastError⟩ }⟩
  rcases hcounted with ⟨hstage, hattempts⟩ | ⟨hstage, hattempts⟩
  · refine .inl ⟨hstage, ?_⟩
    rw [hattempts, hnumber, toNat_ofNat_of_le_limit (Nat.le_of_lt hwithin)]
  · refine .inr ⟨hstage.imp id fun ⟨hnext, hlt⟩ => ⟨_, hnext, ?_⟩, hattempts⟩
    rw [hnumber, toNat_ofNat_of_le_limit hlt]

/-- The log tells how many attempts there were. -/
theorem Closed.attempt_unique {ending ending' : Ending} {attempt attempt' : Nat}
    {last last' : EstablishState} (h : Closed e w ending attempt last r)
    (h' : Closed e w ending' attempt' last' r) : attempt = attempt' := by
  have hlength := congrArg List.length (h.transitions.symm.trans h'.transitions)
  simp only [List.length_append, length_moves, List.length_singleton] at hlength
  omega

/-- What the invariant says in each state, if the delays can be added. -/
theorem Standing.now {entered : Nat} (h : Standing e env w r entered)
    (hfits : DelaysFit e env w) :
    match r.state with
    | .idle =>
      r.stage = .announcing 1 ∧ r.stats.attempts = 0 ∧ r.wire.transitions = w.transitions
    | .attempting attempt => attempt.toNat = entered ∧ InAttempt e env w attempt r
    | .connected => ∃ ending attempts, Closed e w ending attempts .connected r
    | .failed => ∃ ending attempts, Closed e w ending attempts .failed r := by
  cases h with
  | announcing reached current recorded =>
    rw [recorded.state]
    cases entered with
    | zero =>
      exact ⟨current.stage, current.attempts, recorded.transitions.trans (List.append_nil _)⟩
    | succ i =>
      -- the attempt before has failed, and the next one has its number
      exact recorded.inAttempt (Nat.lt_of_succ_lt reached.within) reached.missed (Nat.le_succ i)
        (.inr ⟨.inr ⟨current.stage, reached.within⟩, current.attempts⟩)
  | waiting reached current recorded =>
    rw [recorded.state]
    exact recorded.inAttempt reached.within reached.missed (Nat.le_refl _)
      (.inl ⟨current.stage, current.attempts⟩)
  | asking reached undisturbed current recorded =>
    rw [recorded.state]
    exact recorded.inAttempt reached.within reached.missed (Nat.le_refl _)
      (.inr ⟨.inl current.stage, current.attempts⟩)
  | closed closed =>
    rw [closed.state]
    cases closed.closes with
    | connected client => exact ⟨_, _, closed⟩
    | failed err => exact ⟨_, _, closed⟩
  | overflow stage reached beyond => exact absurd (hfits _ reached) (Nat.not_le_of_lt beyond)

/-- An establishment that is over, if its delays can be added. -/
theorem Standing.closed_of_over {entered : Nat} {ending : Ending}
    (h : Standing e env w r entered) (hfits : DelaysFit e env w) (hover : r.stage = .over ending) :
    ∃ last, Closed e w ending entered last r := by
  cases h with
  | announcing reached current recorded => cases current.stage.symm.trans hover
  | waiting reached current recorded => cases current.stage.symm.trans hover
  | asking reached undisturbed current recorded => cases current.stage.symm.trans hover
  | closed closed =>
    obtain rfl := Stage.over.inj (closed.stage.symm.trans hover)
    exact ⟨_, closed⟩
  | overflow stage reached beyond => exact absurd (hfits _ reached) (Nat.not_le_of_lt beyond)

/-- The states of every establishment whose delays can be added, as far as its attempts get.  It
goes from the idle state through its attempts, one after the other, to one last state, which tells
how it ended.  After any number of steps it is in one of these states: idle with nothing done, in
an attempt with what `InAttempt` says, or in the last one, with nothing to come. -/
theorem states_of_establish (e : Establisher) (env : Surroundings) (w : Wire)
    (hfits : DelaysFit e env w) :
    ∃ ending after attempts last, e.establish env w = (ending, after) ∧
      1 ≤ attempts ∧ attempts ≤ e.limit ∧
      after.transitions = w.transitions ++ (moves attempts ++ [(stateAt attempts, last)]) ∧
      last.isTerminal = true ∧
      (last = .connected ↔ ∃ client, ending = .connected client) ∧
      (last = .failed ↔ ∃ err, ending = .failed err) ∧
      ∀ steps, let r := runFor e env steps (start e w)
        match r.state with
        | .idle =>
          r.stage = .announcing 1 ∧ r.stats.attempts = 0 ∧ r.wire.transitions = w.transitions
        | .attempting attempt => attempt.toNat ≤ attempts ∧ InAttempt e env w attempt r
        | terminal => terminal = last ∧ r.stage = .over ending ∧ r.wire = after := by
  obtain ⟨ending, -, hover, -, -⟩ := ended_run e env w
  obtain ⟨attempts, -, hrun⟩ :=
    (standing_start e env w).runFor (3 * (BackoffSchedule.ofConfig e.config).maxAttempts.toNat)
  obtain ⟨last, hclosed⟩ := Standing.closed_of_over (r := run e env w) hrun hfits hover
  refine ⟨ending, _, attempts, last, establish_of_over hover, hclosed.one_le, hclosed.within,
    hclosed.transitions, hclosed.closes.isTerminal, hclosed.closes.connected_iff,
    hclosed.closes.failed_iff, ?_⟩
  intro steps r
  obtain ⟨entered, -, hstanding⟩ := (standing_start e env w).runFor steps
  have hnow : Standing e env w r entered := hstanding
  have hknown := hnow.now hfits
  -- an establishment in its last state has come to the end of the whole run
  have hlast {attempts' : Nat} {last' : EstablishState} {ending' : Ending}
      (hended : Closed e w ending' attempts' last' r) :
      last' = last ∧ r.stage = .over ending ∧ r.wire = (run e env w).wire := by
    have hsame : r = run e env w := runFor_eq_of_over hended.stage hover
    rw [hsame] at hended ⊢
    exact ⟨hended.state.symm.trans hclosed.state, hover, rfl⟩
  cases hstate : r.state with
  | idle =>
    rw [hstate] at hknown
    exact hknown
  | attempting attempt =>
    rw [hstate] at hknown
    obtain ⟨hnumber, hattempt⟩ := hknown
    -- the run goes on from here, and does not fall back behind this attempt
    have hrest : runFor e env (3 * (BackoffSchedule.ofConfig e.config).maxAttempts.toNat) r =
        run e env w := by
      rw [← runFor_add, Nat.add_comm, runFor_add]
      exact runFor_of_over hover steps
    obtain ⟨attempts', hle, hend⟩ :=
      hnow.runFor (3 * (BackoffSchedule.ofConfig e.config).maxAttempts.toNat)
    rw [hrest] at hend
    obtain ⟨last', hclosed'⟩ := hend.closed_of_over hfits hover
    have hattempts := hclosed'.attempt_unique hclosed
    exact ⟨by omega, hattempt⟩
  | connected =>
    rw [hstate] at hknown
    obtain ⟨_, _, hended⟩ := hknown
    exact hlast hended
  | failed =>
    rw [hstate] at hknown
    obtain ⟨_, _, hended⟩ := hknown
    exact hlast hended

/-- Up to three attempts, each after ten milliseconds more than the one before. -/
def threeAttempts : Establisher :=
  { config := .ofChanges default "" "" [.maxAttempts 3, .backoffStep (.ofMillis 10)] }

/-- The wire of a caller who is going to cancel after fifty milliseconds. -/
def impatient : Wire := { cancelAt := some 50 }

/-- A daemon that refuses, and a caller who cancels in the wait of the third attempt.  That attempt
is entered, but not counted. -/
theorem states_of_establish_cancelled :
    DelaysFit threeAttempts (refusing 5) impatient ∧
      ∃ after, threeAttempts.establish (refusing 5) impatient = (.failed (.cancelled 2), after) ∧
        after.transitions =
          [(.idle, .attempting 1), (.attempting 1, .attempting 2),
            (.attempting 2, .attempting 3), (.attempting 3, .failed)] := by
  have hfits : DelaysFit threeAttempts (refusing 5) impatient :=
    delaysFit_of_representable _ _
      (show (BackoffSchedule.ofConfig threeAttempts.config).nanosUpTo 3 ≤
        Duration.maximum.toNanos by decide)
  obtain ⟨ending, after, attempts, last, hrun, -, -, htransitions, -, -, hfailed, -⟩ :=
    states_of_establish threeAttempts (refusing 5) impatient hfits
  have hending : (threeAttempts.establish (refusing 5) impatient).1 = .failed (.cancelled 2) := by
    rfl
  have hlength : (threeAttempts.establish (refusing 5) impatient).2.transitions.length = 4 := by
    rfl
  rw [hrun] at hending hlength
  have hlast : last = .failed := hfailed.2 ⟨_, hending⟩
  have hattempts : attempts = 3 := by
    rw [htransitions, List.length_append, List.length_append, length_moves] at hlength
    exact Nat.succ.inj ((Nat.zero_add _).symm.trans hlength)
  refine ⟨hfits, after, hrun.trans (congrArg (·, after) hending), ?_⟩
  rw [htransitions, hlast, hattempts]
  rfl

end DaemonRpc.Establishment
