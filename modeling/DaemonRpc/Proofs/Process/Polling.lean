import Mathlib.Algebra.Order.Floor.Div
import DaemonRpc.Proofs.Process.Supervision

/-!
# The polls of a wait

Who waits for a process polls it, sleeps, and polls it again.  `Looping` is a trace of that loop
beside `waitUntil`.  It has the time of every poll, which the recorded steps do not tell.

* `looping_waitUntil` is the trace of every wait.
* `Looping.turns_spec` and `Looping.last_spec` say what the polls see, and how far the sleeps reach.
* `Looping.length_le` bounds the turns by the poll intervals that fit before the deadline.
* `waitForExit_polls` is the whole wait with a timeout.
-/

namespace DaemonRpc.Supervised

variable {σ : Type} {os : OperatingSystem σ} {p p' : Supervised σ} {deadline : Nat}

/-! ## One poll -/

/-- A poll: when it is made, and what the system says. -/
structure Look where
  time : Nat
  answer : PollAnswer

/-- The poll that is made now. -/
def look (os : OperatingSystem σ) (p : Supervised σ) : Look where
  time := p.clock
  answer := (os.poll p.clock p.system).1

/-- What a poll comes to. -/
theorem poll_eq (os : OperatingSystem σ) (p : Supervised σ) :
    p.poll os = (decide ((p.look os).answer = .exited),
      { p with
        system := (os.poll p.clock p.system).2
        finished := p.finished || decide ((p.look os).answer = .exited)
        steps := .polled (p.look os).answer :: p.steps }) := by
  rcases hpoll : os.poll p.clock p.system with ⟨answer, system⟩
  simp only [poll, look, note, hpoll]
  cases answer with
  | exited => simp
  | running => simp
  | failed e => simp

theorem hasExited_eq_poll (hp : p.finished = false) (os : OperatingSystem σ) :
    p.hasExited os = p.poll os := by
  rw [hasExited, if_neg (by simp [hp])]

/-! ## The loop -/

/-- A turn of the loop that goes on: a poll, and how long a sleep is asked for behind it, in
nanoseconds. -/
structure Turn extends Look where
  nanos : Nat

/-- The steps of a turn, the latest first. -/
def Turn.steps (t : Turn) : List SupervisionStep := [.slept t.nanos, .polled t.answer]

/-- The turn that is made now by who waits up to a deadline. -/
def turn (os : OperatingSystem σ) (deadline : Nat) (p : Supervised σ) : Turn where
  toLook := p.look os
  nanos := min pollInterval (deadline - p.clock)

/-- The process after that turn. -/
def turned (os : OperatingSystem σ) (deadline : Nat) (p : Supervised σ) : Supervised σ :=
  (p.poll os).2.sleep os (p.turn os deadline).nanos

/-- The loop of a wait: the turns that go on, the last poll, and the process then. -/
inductive Looping (os : OperatingSystem σ) (deadline : Nat) :
    Supervised σ → List Turn → Look → Supervised σ → Prop where
  | last {p : Supervised σ} (ends : (p.look os).answer = .exited ∨ deadline ≤ p.clock) :
      Looping os deadline p [] (p.look os) (p.poll os).2
  | turn {p p' : Supervised σ} {turns : List Turn} {last : Look}
      (running : (p.look os).answer ≠ .exited) (early : p.clock < deadline)
      (rest : Looping os deadline (p.turned os deadline) turns last p') :
      Looping os deadline p (p.turn os deadline :: turns) last p'

/-- All polls of a wait. -/
def polls (turns : List Turn) (last : Look) : List Look := turns.map Turn.toLook ++ [last]

theorem clock_turned (os : OperatingSystem σ) (deadline : Nat) (p : Supervised σ) :
    p.clock + (p.turn os deadline).nanos ≤ (p.turned os deadline).clock := by
  simp only [turned, sleep, note, clock_poll]
  omega

theorem steps_turned (os : OperatingSystem σ) (deadline : Nat) (p : Supervised σ) :
    (p.turned os deadline).steps = (p.turn os deadline).steps ++ p.steps := by
  simp only [turned, sleep, note, poll_eq]
  rfl

/-- A sleep before the deadline takes some time. -/
theorem nanos_turn_pos (os : OperatingSystem σ) (early : p.clock < deadline) :
    0 < (p.turn os deadline).nanos := by
  show 0 < min pollInterval (deadline - p.clock)
  unfold pollInterval
  omega

theorem finished_turned (hp : p.finished = false) (running : (p.look os).answer ≠ .exited) :
    (p.turned os deadline).finished = false := by
  simp [turned, sleep, note, poll_eq, hp, running]

/-- One turn of a wait for a process that is not known to have exited. -/
theorem waitUntil_eq_turned (hp : p.finished = false) (os : OperatingSystem σ) (deadline : Nat) :
    p.waitUntil os deadline =
      if (p.look os).answer = .exited then (true, (p.poll os).2)
      else if p.clock < deadline then (p.turned os deadline).waitUntil os deadline
      else (false, (p.poll os).2) := by
  have hseen : (p.poll os).1 = decide ((p.look os).answer = .exited) :=
    congrArg Prod.fst (poll_eq os p)
  rw [waitUntil_eq, hasExited_eq_poll hp, hseen, clock_poll]
  simp only [decide_eq_true_eq]
  rfl

/-- Every wait is a loop, and says whether its last poll has seen the exit. -/
theorem looping_waitUntil (hp : p.finished = false) (os : OperatingSystem σ) (deadline : Nat) :
    ∃ turns last, Looping os deadline p turns last (p.waitUntil os deadline).2 ∧
      (p.waitUntil os deadline).1 = decide (last.answer = .exited) := by
  -- the time that is left becomes less with every sleep
  induction hleft : deadline - p.clock using Nat.strong_induction_on generalizing p with
  | _ left ih =>
    rw [waitUntil_eq_turned hp]
    by_cases hexited : (p.look os).answer = .exited
    · rw [if_pos hexited]
      exact ⟨[], p.look os, .last (Or.inl hexited), (decide_eq_true hexited).symm⟩
    · rw [if_neg hexited]
      by_cases hearly : p.clock < deadline
      · rw [if_pos hearly]
        have hnext := clock_turned os deadline p
        have hpositive := nanos_turn_pos os hearly
        obtain ⟨turns, last, hloop, hanswer⟩ :=
          ih (deadline - (p.turned os deadline).clock) (by omega) (finished_turned hp hexited) rfl
        exact ⟨_, last, .turn hexited hearly hloop, hanswer⟩
      · rw [if_neg hearly]
        have hlate := Nat.le_of_not_lt hearly
        exact ⟨[], p.look os, .last (Or.inr hlate), (decide_eq_false hexited).symm⟩

/-! ## What the loop does -/

/-- Every turn that goes on has not seen the exit, is made before the deadline, and sleeps for
some time, for at most an interval and not beyond the deadline. -/
theorem Looping.turns_spec {turns : List Turn} {last : Look}
    (h : Looping os deadline p turns last p') :
    ∀ t ∈ turns, t.answer ≠ .exited ∧ t.time < deadline ∧ 0 < t.nanos ∧
      t.nanos ≤ pollInterval ∧ t.time + t.nanos ≤ deadline := by
  induction h with
  | last _ => simp
  | @turn p _ _ _ running early _ ih =>
    refine List.forall_mem_cons.2 ⟨⟨running, early, nanos_turn_pos os early, ?_, ?_⟩, ih⟩
    · exact Nat.min_le_left _ _
    · show p.clock + min pollInterval (deadline - p.clock) ≤ deadline
      omega

/-- The last poll is the latest thing that was done, and a poll that ends the wait without an exit
is late. -/
theorem Looping.last_spec {turns : List Turn} {last : Look}
    (h : Looping os deadline p turns last p') :
    last.time = p'.clock ∧ (last.answer ≠ .exited → deadline ≤ last.time) := by
  induction h with
  | last ends => exact ⟨(clock_poll os _).symm, fun hrunning => ends.resolve_left hrunning⟩
  | turn _ _ _ ih => exact ih

/-- A process that was not known to have exited is known to afterwards if the last poll has seen
it. -/
theorem Looping.finished_eq {turns : List Turn} {last : Look}
    (h : Looping os deadline p turns last p') (hp : p.finished = false) :
    p'.finished = decide (last.answer = .exited) := by
  induction h with
  | last _ => simp [poll_eq, hp]
  | turn running _ _ ih => exact ih (finished_turned hp running)

/-- What a wait adds to the steps: a poll and a sleep for every turn, and the last poll. -/
theorem Looping.steps_eq {turns : List Turn} {last : Look}
    (h : Looping os deadline p turns last p') :
    p'.steps = .polled last.answer :: ((turns.reverse.flatMap Turn.steps) ++ p.steps) := by
  induction h with
  | last _ => rw [poll_eq]; rfl
  | turn _ _ _ ih =>
    rw [ih, steps_turned]
    simp

/-- There is a turn for every interval before the deadline at most, where the last may be cut
short. -/
theorem Looping.length_le {turns : List Turn} {last : Look}
    (h : Looping os deadline p turns last p') :
    turns.length ≤ (deadline - p.clock) ⌈/⌉ pollInterval := by
  induction h with
  | last _ => exact Nat.zero_le _
  | @turn p _ _ _ _ early _ ih =>
    have hnext := clock_turned os deadline p
    have hnanos : (p.turn os deadline).nanos = min pollInterval (deadline - p.clock) := rfl
    rw [Nat.ceilDiv_eq_add_pred_div] at ih ⊢
    rw [List.length_cons]
    unfold pollInterval at hnanos ih ⊢
    omega

/-- Every poll has the answer that the system gives at its time. -/
theorem Looping.answered {turns : List Turn} {last : Look}
    (h : Looping os deadline p turns last p') :
    ∀ l ∈ polls turns last, ∃ system, l.answer = (os.poll l.time system).1 := by
  induction h with
  | @last p _ => exact List.forall_mem_singleton.2 ⟨p.system, rfl⟩
  | @turn p _ _ _ _ _ _ ih => exact List.forall_mem_cons.2 ⟨⟨p.system, rfl⟩, ih⟩

/-- The last poll sees the exit if any does. -/
theorem Looping.exited_iff {turns : List Turn} {last : Look}
    (h : Looping os deadline p turns last p') :
    last.answer = .exited ↔ ∃ l ∈ polls turns last, l.answer = .exited := by
  constructor
  · intro hexited
    exact ⟨last, by simp [polls], hexited⟩
  · rintro ⟨l, hl, hexited⟩
    rcases List.mem_append.1 hl with hturn | hlast
    · obtain ⟨t, ht, rfl⟩ := List.mem_map.1 hturn
      exact absurd hexited (h.turns_spec t ht).1
    · rwa [List.mem_singleton.1 hlast] at hexited

/-! ## With a timeout -/

theorem deadline?_eq_none_iff {timeout : Duration} : p.deadline? timeout = none ↔
    clockSeconds * Duration.nanosPerSec ≤ p.clock + timeout.toNanos := by
  unfold deadline?
  dsimp only
  split
  · simp; omega
  · simp; omega

theorem deadline?_of_ne_none {timeout : Duration} (h : p.deadline? timeout ≠ none) :
    p.deadline? timeout = some (p.clock + timeout.toNanos) := by
  unfold deadline? at h ⊢
  dsimp only at h ⊢
  split at h
  · rename_i hlt
    rw [if_pos hlt]
  · exact absurd rfl h

/-- A wait whose deadline the clock can reach, for every operating system: any poll may fail, and
any sleep may take longer than it was asked to.  It always comes to its end.

A process that was seen to exit is not polled any more.  Any other is polled at least once, and at
most once for every interval that begins before the deadline and once more.  No sleep is longer than
an interval or reaches beyond the deadline.  The wait says that the process has exited exactly if
one of its polls has seen it, and otherwise its last poll was made at the deadline or later.  So
polls that work do not miss an exit up to the deadline. -/
theorem waitForExit_polls {timeout : Duration} (hrange : p.deadline? timeout ≠ none)
    (os : OperatingSystem σ) :
    let deadline := p.clock + timeout.toNanos
    (p.finished = true → p.waitForExit os timeout = (.done true, p)) ∧
    (p.finished = false → ∃ exited p' turns last,
      p.waitForExit os timeout = (.done exited, p') ∧
      Looping os deadline p turns last p' ∧
      p'.steps = .polled last.answer :: (turns.reverse.flatMap Turn.steps ++ p.steps) ∧
      1 ≤ (polls turns last).length ∧
      (polls turns last).length ≤ timeout.toNanos ⌈/⌉ pollInterval + 1 ∧
      (∀ t ∈ turns, t.time < deadline ∧ t.nanos ≤ pollInterval ∧ t.time + t.nanos ≤ deadline) ∧
      (exited = true ↔ ∃ l ∈ polls turns last, l.answer = .exited) ∧
      (exited = false → last.answer ≠ .exited ∧ deadline ≤ last.time) ∧
      ∀ exit ≤ deadline,
        (∀ l ∈ polls turns last, exit ≤ l.time → l.answer = .exited) → exited = true) := by
  intro deadline
  refine ⟨fun hp => ?_, fun hp => ?_⟩
  · obtain ⟨hsame, hanswer⟩ := waitForExit_of_finished hp os timeout
    exact Prod.ext (hanswer hrange) hsame
  obtain ⟨turns, last, hloop, hanswer⟩ := looping_waitUntil hp os deadline
  have hlength : (polls turns last).length = turns.length + 1 := by simp [polls]
  obtain ⟨-, hlate⟩ := hloop.last_spec
  have hturns := hloop.turns_spec
  have hbound := hloop.length_le
  rw [show deadline - p.clock = timeout.toNanos from Nat.add_sub_cancel_left _ _] at hbound
  refine ⟨_, _, turns, last, waitForExit_of_some (deadline?_of_ne_none hrange) os, hloop,
    hloop.steps_eq, by omega, by omega, ?_, ?_, ?_, ?_⟩
  · intro t ht
    obtain ⟨-, hearly, -, hshort, hwithin⟩ := hturns t ht
    exact ⟨hearly, hshort, hwithin⟩
  · rw [hanswer, decide_eq_true_eq]
    exact hloop.exited_iff
  · intro hnot
    have hrunning : last.answer ≠ .exited := of_decide_eq_false (hanswer ▸ hnot)
    exact ⟨hrunning, hlate hrunning⟩
  · intro exit hexit hworks
    rw [hanswer, decide_eq_true_eq]
    by_contra hrunning
    have hlast : last ∈ polls turns last := by simp [polls]
    exact hrunning (hworks last hlast (Nat.le_trans hexit (hlate hrunning)))

/-- A process that exits at the very end of the wait: a quarter of a second, which is two intervals
and a half.  Four polls at most are made, and the last one sees it. -/
theorem waitForExit_polls_last_moment :
    let os : OperatingSystem Unit :=
      { poll time s := (if 250_000_000 ≤ time then .exited else .failed .noChild, s)
        requestExit _ s := (.ok (), s), kill _ s := (.ok (), s), reap _ s := (.ok (), s)
        oversleep _ s := (0, s) }
    let p : Supervised Unit :=
      { pid := 7, binary := "d", grace := .ofSecs 5, clock := 0, system := () }
    p.deadline? (.ofMillis 250) ≠ none ∧ p.finished = false ∧
      ∃ p' turns last, p.waitForExit os (.ofMillis 250) = (.done true, p') ∧
        Looping os (p.clock + (Duration.ofMillis 250).toNanos) p turns last p' ∧
        (polls turns last).length ≤ 4 := by
  intro os p
  have hrange : p.deadline? (.ofMillis 250) ≠ none := by decide
  obtain ⟨-, hwait⟩ := waitForExit_polls hrange os
  obtain ⟨exited, p', turns, last, hend, hloop, -, -, hbound, -, -, -, hmissed⟩ := hwait rfl
  have hexited : exited = true := by
    refine hmissed 250_000_000 (by decide) fun l hl htime => ?_
    obtain ⟨system, hanswer⟩ := hloop.answered l hl
    rw [hanswer]
    exact if_pos htime
  have hfour : (Duration.ofMillis 250).toNanos ⌈/⌉ pollInterval + 1 = 4 := by decide
  exact ⟨hrange, rfl, p', turns, last, hexited ▸ hend, hloop, hfour ▸ hbound⟩

end DaemonRpc.Supervised
