import DaemonRpc.Process.Supervision

/-!
# A process that was seen to exit is left alone

Who watches over a process must not touch it any more once it has exited, as its number may belong
to another process by then.

* `Waited` and `Terminated` are all that can come of waiting for a process and of ending it, for
  every operating system; each says what was done and in which order.
* `Reached` is what becomes of a process by whatever is done with it.
* `Witnessed` says that the process counts as finished exactly if the latest step shows its exit,
  and that no other step does.  `Reached.watched` has it for every process that is reached.
* `supervision_spec` is what is done about such a process: before its exit is seen, and from then
  on.
-/

namespace DaemonRpc

namespace SupervisionStep

/-- The step shows that the process has exited: a poll says so, or the process was waited for. -/
inductive ShowsExit : SupervisionStep → Prop where
  | polled : ShowsExit (.polled .exited)
  | reaped : ShowsExit (.reaped (.ok ()))

/-- A step of the wait for an exit that is not seen: a poll, or a sleep between two polls. -/
inductive IsWaiting : SupervisionStep → Prop where
  | running : IsWaiting (.polled .running)
  | failed (e : OsError) : IsWaiting (.polled (.failed e))
  | slept (nanos : Nat) : IsWaiting (.slept nanos)

theorem IsWaiting.not_showsExit {s : SupervisionStep} (h : s.IsWaiting) : ¬ s.ShowsExit := by
  cases h <;> nofun

theorem isWaiting_of_ne {answer : PollAnswer} (h : answer ≠ .exited) :
    (polled answer).IsWaiting := by
  cases answer with
  | exited => exact absurd rfl h
  | running => exact .running
  | failed e => exact .failed e

end SupervisionStep

open SupervisionStep

namespace Supervised

variable {σ : Type} {os : OperatingSystem σ} {p p' : Supervised σ} {deadline : Nat}

/-! ## Waiting -/

/-- What a poll can come to while the process is not known to have exited. -/
inductive Polled (p : Supervised σ) : Bool → Supervised σ → Prop where
  | exited {system : σ} :
      Polled p true { p with system, finished := true, steps := .polled .exited :: p.steps }
  | running {answer : PollAnswer} {system : σ} (running : answer ≠ .exited) :
      Polled p false { p with system, steps := .polled answer :: p.steps }

theorem hasExited_polled (hp : p.finished = false) (os : OperatingSystem σ) :
    Polled p (p.hasExited os).1 (p.hasExited os).2 := by
  rw [hasExited, if_neg (by simp [hp]), poll]
  obtain ⟨answer, system⟩ := os.poll p.clock p.system
  cases answer with
  | exited => exact .exited
  | running => exact .running (by simp)
  | failed e => exact .running (by simp)

/-- What waiting up to a deadline can come to: the last poll has seen the exit, or none has and it
was late. -/
inductive Waited (p : Supervised σ) (deadline : Nat) : Bool → Supervised σ → Prop where
  | exited {system : σ} {clock : Nat} {waiting : List SupervisionStep}
      (calm : ∀ s ∈ waiting, s.IsWaiting) :
      Waited p deadline true { p with
        system, clock, finished := true, steps := .polled .exited :: (waiting ++ p.steps) }
  | late {system : σ} {clock : Nat} {waiting : List SupervisionStep}
      (calm : ∀ s ∈ waiting, s.IsWaiting) (late : deadline ≤ clock) :
      Waited p deadline false { p with system, clock, steps := waiting ++ p.steps }

/-- Waiting goes on after a poll that has seen no exit and a sleep. -/
theorem Waited.after {answer : PollAnswer} (running : answer ≠ .exited) {system : σ}
    {clock nanos : Nat} {exited : Bool}
    (h : Waited { p with system, clock, steps := .slept nanos :: .polled answer :: p.steps }
      deadline exited p') : Waited p deadline exited p' := by
  have hcalm : ∀ {waiting : List SupervisionStep}, (∀ s ∈ waiting, s.IsWaiting) →
      ∀ s ∈ waiting ++ [.slept nanos, .polled answer], s.IsWaiting := by
    intro waiting hwaiting
    refine List.forall_mem_append.2 ⟨hwaiting, List.forall_mem_cons.2 ⟨.slept nanos, ?_⟩⟩
    exact List.forall_mem_singleton.2 (isWaiting_of_ne running)
  have hsteps : ∀ waiting : List SupervisionStep,
      waiting ++ .slept nanos :: .polled answer :: p.steps =
        (waiting ++ [.slept nanos, .polled answer]) ++ p.steps := by
    intro waiting
    simp
  cases h with
  | exited calm =>
    rw [hsteps]
    exact .exited (hcalm calm)
  | late calm late =>
    rw [hsteps]
    exact .late (hcalm calm) late

/-- One turn of the loop. -/
theorem waitUntil_eq (os : OperatingSystem σ) (deadline : Nat) (p : Supervised σ) :
    p.waitUntil os deadline =
      if (p.hasExited os).1 then (true, (p.hasExited os).2)
      else if (p.hasExited os).2.clock < deadline then
        waitUntil os deadline ((p.hasExited os).2.sleep os
          (min pollInterval (deadline - (p.hasExited os).2.clock)))
      else (false, (p.hasExited os).2) := by
  rw [waitUntil]
  split
  · rename_i hseen
    simp [hseen]
  · rename_i hseen
    simp [hseen]

/-- Waiting comes to an exit that is seen, or to its deadline. -/
theorem waitUntil_waited (hp : p.finished = false) (os : OperatingSystem σ) (deadline : Nat) :
    Waited p deadline (p.waitUntil os deadline).1 (p.waitUntil os deadline).2 := by
  -- along the loop, of which each turn polls and then sleeps
  induction p using waitUntil.induct os deadline with
  | case1 p q hseen =>
    have hpolled := hasExited_polled hp os
    rw [waitUntil_eq, hseen, if_pos rfl]
    rw [hseen] at hpolled
    cases hpolled with
    | exited => exact .exited (List.forall_mem_nil _)
  | case2 p q hseen hlt ih =>
    have hpolled := hasExited_polled hp os
    rw [waitUntil_eq, hseen, if_neg Bool.false_ne_true, if_pos hlt]
    rw [hseen] at hpolled
    cases hpolled with
    | running running => exact .after running (ih hp)
  | case3 p q hseen hlt =>
    have hpolled := hasExited_polled hp os
    rw [waitUntil_eq, hseen, if_neg Bool.false_ne_true, if_neg hlt]
    rw [hseen] at hpolled
    cases hpolled with
    | @running answer system running =>
      have hwaiting : ∀ s ∈ [SupervisionStep.polled answer], s.IsWaiting :=
        List.forall_mem_singleton.2 (isWaiting_of_ne running)
      exact .late hwaiting (Nat.le_of_not_lt hlt)

/-! ### With a timeout -/

theorem deadline?_eq (h : p'.clock = p.clock) (timeout : Duration) :
    p'.deadline? timeout = p.deadline? timeout := by
  rw [deadline?, deadline?, h]

theorem clock_add_le_of_deadline? {timeout : Duration} (h : p.deadline? timeout = some deadline) :
    p.clock + timeout.toNanos ≤ deadline := by
  unfold deadline? at h
  dsimp only at h
  split at h
  · exact Nat.le_of_eq (Option.some.inj h)
  · exact absurd h (by simp)

theorem waitForExit_of_none {timeout : Duration} (h : p.deadline? timeout = none)
    (os : OperatingSystem σ) : p.waitForExit os timeout = (.overflow, p) := by
  rw [waitForExit, h, waitBy]

theorem waitForExit_of_some {timeout : Duration} (h : p.deadline? timeout = some deadline)
    (os : OperatingSystem σ) :
    p.waitForExit os timeout =
      (.done (p.waitUntil os deadline).1, (p.waitUntil os deadline).2) := by
  rw [waitForExit, h, waitBy]

/-! ## Ending a process -/

/-- What is done to ask a process of a number to exit: there is one request, if the number is in
range, and otherwise nothing. -/
inductive Asked (pid : Nat) : List SupervisionStep → Prop where
  | sent {request : Except OsError Unit} (inRange : pid ≤ lastPid) :
      Asked pid [.exitRequested request]
  | skipped (outOfRange : ¬ pid ≤ lastPid) : Asked pid []

theorem exists_asked_requestExit (os : OperatingSystem σ) (p : Supervised σ) :
    ∃ asked system, Asked p.pid asked ∧
      p.requestExit os = { p with system, steps := asked ++ p.steps } := by
  unfold requestExit
  split
  · rename_i hrange
    exact ⟨_, _, .sent hrange, rfl⟩
  · rename_i hrange
    exact ⟨[], p.system, .skipped hrange, rfl⟩

/-- What an end can come to.  The first poll sees the exit; or the process is asked to exit, and a
poll within the grace sees it; or it is killed after the grace, and waited for.  A grace that the
clock cannot reach breaks the end off. -/
inductive Terminated (p : Supervised σ) : Finish Unit → Supervised σ → Prop where
  | exited {system : σ} : Terminated p (.done ())
      { p with system, finished := true, steps := .polled .exited :: p.steps }
  | outOfRange {first : PollAnswer} {asked : List SupervisionStep} {system : σ}
      (running : first ≠ .exited) (asks : Asked p.pid asked) (beyond : p.deadline? p.grace = none) :
      Terminated p .overflow { p with system, steps := asked ++ .polled first :: p.steps }
  | obeyed {first : PollAnswer} {asked waiting : List SupervisionStep} {system : σ} {clock : Nat}
      (running : first ≠ .exited) (asks : Asked p.pid asked) (calm : ∀ s ∈ waiting, s.IsWaiting) :
      Terminated p (.done ()) { p with
        system, clock, finished := true
        steps := .polled .exited :: (waiting ++ (asked ++ .polled first :: p.steps)) }
  | killed {first : PollAnswer} {kill : Except OsError Unit} {asked waiting : List SupervisionStep}
      {system : σ} {clock : Nat} (running : first ≠ .exited) (asks : Asked p.pid asked)
      (calm : ∀ s ∈ waiting, s.IsWaiting) (late : p.clock + p.grace.toNanos ≤ clock) :
      Terminated p (.done ()) { p with
        system, clock, finished := true
        steps := .reaped (.ok ()) :: .killed kill ::
          (waiting ++ (asked ++ .polled first :: p.steps)) }
  | lost {first : PollAnswer} {kill : Except OsError Unit} {e : OsError}
      {asked waiting : List SupervisionStep} {system : σ} {clock : Nat} (running : first ≠ .exited)
      (asks : Asked p.pid asked) (calm : ∀ s ∈ waiting, s.IsWaiting)
      (late : p.clock + p.grace.toNanos ≤ clock) :
      Terminated p (.done ()) { p with
        system, clock
        steps := .reaped (.error e) :: .killed kill ::
          (waiting ++ (asked ++ .polled first :: p.steps)) }

/-- Killing asks the system twice, and the process is known to have exited if the second answer is
no failure. -/
theorem forceKill_cases (os : OperatingSystem σ) (p : Supervised σ) :
    ∃ kill system, p.forceKill os = { p with
        system, finished := true, steps := .reaped (.ok ()) :: .killed kill :: p.steps } ∨
      ∃ e, p.forceKill os = { p with
        system, steps := .reaped (.error e) :: .killed kill :: p.steps } := by
  rcases hkill : os.kill p.clock p.system with ⟨kill, system⟩
  rcases hreap : os.reap p.clock system with ⟨reap, system'⟩
  simp only [forceKill, note, hkill, hreap]
  cases reap with
  | ok _ => exact ⟨kill, system', Or.inl rfl⟩
  | error e => exact ⟨kill, system', Or.inr ⟨e, rfl⟩⟩

/-- An end that goes beyond its first poll. -/
theorem terminate_of_running (h : p.hasExited os = (false, p')) :
    p.terminate os = afterGrace os ((p'.requestExit os).waitForExit os p'.grace) := by
  rw [terminate, h]
  simp only [Bool.false_eq_true, if_false]

/-- Every end is one of those. -/
theorem terminate_terminated (hp : p.finished = false) (os : OperatingSystem σ) :
    Terminated p (p.terminate os).1 (p.terminate os).2 := by
  have hpolled := hasExited_polled hp os
  rcases hseen : p.hasExited os with ⟨exited, q⟩
  rw [hseen] at hpolled
  cases hpolled with
  | exited =>
    rw [terminate, hseen]
    exact .exited
  | @running first system running =>
    rw [terminate_of_running hseen]
    obtain ⟨asked, system', hasks, hrequest⟩ :=
      exists_asked_requestExit os { p with system, steps := .polled first :: p.steps }
    obtain ⟨q, hq⟩ : ∃ q : Supervised σ, q = { p with
      system := system', steps := asked ++ SupervisionStep.polled first :: p.steps } := ⟨_, rfl⟩
    rw [hrequest, ← hq]
    have hsame : q.deadline? p.grace = p.deadline? p.grace := deadline?_eq (by rw [hq]) _
    cases hdeadline : p.deadline? p.grace with
    | none =>
      rw [waitForExit_of_none (hsame.trans hdeadline), hq]
      exact .outOfRange running hasks hdeadline
    | some deadline =>
      have hwaited := waitUntil_waited (p := q) (by rw [hq]; exact hp) os deadline
      rw [waitForExit_of_some (hsame.trans hdeadline)]
      rcases hwait : q.waitUntil os deadline with ⟨exited, after⟩
      rw [hwait] at hwaited
      subst hq
      cases hwaited with
      | exited calm => exact .obeyed running hasks calm
      | @late system clock waiting calm late =>
        have hlate := Nat.le_trans (clock_add_le_of_deadline? hdeadline) late
        rw [afterGrace]
        rcases forceKill_cases os { p with
          system, clock, steps := waiting ++ (asked ++ .polled first :: p.steps) }
          with ⟨kill, system, hkill | ⟨e, hkill⟩⟩
        · rw [hkill]
          exact .killed running hasks calm hlate
        · rw [hkill]
          exact .lost running hasks calm hlate

/-! ## After the exit -/

theorem hasExited_of_finished (hp : p.finished = true) (os : OperatingSystem σ) :
    p.hasExited os = (true, p) := by
  rw [hasExited, if_pos hp]

theorem terminate_of_finished (hp : p.finished = true) (os : OperatingSystem σ) :
    p.terminate os = (.done (), p) := by
  rw [terminate, hasExited_of_finished hp]
  rfl

theorem waitUntil_of_finished (hp : p.finished = true) (os : OperatingSystem σ) (deadline : Nat) :
    p.waitUntil os deadline = (true, p) := by
  rw [waitUntil_eq, hasExited_of_finished hp, if_pos rfl]

theorem waitForExit_of_finished (hp : p.finished = true) (os : OperatingSystem σ)
    (timeout : Duration) :
    (p.waitForExit os timeout).2 = p ∧
      (p.deadline? timeout ≠ none → (p.waitForExit os timeout).1 = .done true) := by
  cases hdeadline : p.deadline? timeout with
  | none =>
    rw [waitForExit_of_none hdeadline]
    exact ⟨rfl, fun hsome => absurd rfl hsome⟩
  | some deadline =>
    rw [waitForExit_of_some hdeadline, waitUntil_of_finished hp]
    exact ⟨rfl, fun _ => rfl⟩

/-! ## Any acts -/

/-- What becomes of a process by what is done with it, in any order.  To ask for its number changes
nothing. -/
inductive Reached (os : OperatingSystem σ) (start : Supervised σ) : Supervised σ → Prop where
  | start : Reached os start start
  | waitForExit {p : Supervised σ} (timeout : Duration) (before : Reached os start p) :
      Reached os start (p.waitForExit os timeout).2
  | terminate {p : Supervised σ} (before : Reached os start p) : Reached os start (p.terminate os).2
  | drop {p : Supervised σ} (before : Reached os start p) : Reached os start (p.drop os).2

/-- The process counts as finished exactly if the latest step shows its exit, and no step before
that shows it. -/
inductive Witnessed : Bool → List SupervisionStep → Prop where
  | running {steps : List SupervisionStep} (unseen : ∀ s ∈ steps, ¬ s.ShowsExit) :
      Witnessed false steps
  | exited {latest : SupervisionStep} {steps : List SupervisionStep} (seen : latest.ShowsExit)
      (unseen : ∀ s ∈ steps, ¬ s.ShowsExit) : Witnessed true (latest :: steps)

theorem Waited.witnessed {exited : Bool} (h : Waited p deadline exited p')
    (hp : p.finished = false) (hunseen : ∀ s ∈ p.steps, ¬ s.ShowsExit) :
    Witnessed p'.finished p'.steps := by
  cases h with
  | exited calm =>
    exact .exited .polled
      (List.forall_mem_append.2 ⟨fun s hs => (calm s hs).not_showsExit, hunseen⟩)
  | late calm late =>
    show Witnessed p.finished _
    rw [hp]
    exact .running (List.forall_mem_append.2 ⟨fun s hs => (calm s hs).not_showsExit, hunseen⟩)

theorem Asked.not_showsExit {pid : Nat} {asked : List SupervisionStep} (h : Asked pid asked) :
    ∀ s ∈ asked, ¬ s.ShowsExit := by
  cases h with
  | sent _ => exact List.forall_mem_singleton.2 nofun
  | skipped _ => exact List.forall_mem_nil _

/-- The steps of an end up to the end of its grace. -/
theorem not_showsExit_asked {first : PollAnswer} {pid : Nat}
    {asked waiting steps : List SupervisionStep} (running : first ≠ .exited)
    (asks : Asked pid asked) (calm : ∀ s ∈ waiting, s.IsWaiting)
    (hunseen : ∀ s ∈ steps, ¬ s.ShowsExit) :
    ∀ s ∈ waiting ++ (asked ++ .polled first :: steps), ¬ s.ShowsExit := by
  have hpolled : ∀ s ∈ .polled first :: steps, ¬ s.ShowsExit :=
    List.forall_mem_cons.2 ⟨(isWaiting_of_ne running).not_showsExit, hunseen⟩
  refine List.forall_mem_append.2 ⟨fun s hs => (calm s hs).not_showsExit, ?_⟩
  exact List.forall_mem_append.2 ⟨asks.not_showsExit, hpolled⟩

theorem Terminated.witnessed {finish : Finish Unit} (h : Terminated p finish p')
    (hp : p.finished = false) (hunseen : ∀ s ∈ p.steps, ¬ s.ShowsExit) :
    Witnessed p'.finished p'.steps := by
  cases h with
  | exited => exact .exited .polled hunseen
  | outOfRange running asks beyond =>
    show Witnessed p.finished _
    rw [hp]
    exact .running (not_showsExit_asked running asks (List.forall_mem_nil _) hunseen)
  | obeyed running asks calm =>
    exact .exited .polled (not_showsExit_asked running asks calm hunseen)
  | killed running asks calm late =>
    exact .exited .reaped
      (List.forall_mem_cons.2 ⟨nofun, not_showsExit_asked running asks calm hunseen⟩)
  | lost running asks calm late =>
    show Witnessed p.finished _
    rw [hp]
    refine .running (List.forall_mem_cons.2 ⟨nofun, List.forall_mem_cons.2 ⟨nofun, ?_⟩⟩)
    exact not_showsExit_asked running asks calm hunseen

theorem Waited.same {exited : Bool} (h : Waited p deadline exited p') :
    p'.pid = p.pid ∧ p'.grace = p.grace := by
  cases h <;> exact ⟨rfl, rfl⟩

theorem Terminated.same {finish : Finish Unit} (h : Terminated p finish p') :
    p'.pid = p.pid ∧ p'.grace = p.grace := by
  cases h <;> exact ⟨rfl, rfl⟩

/-- The exit of the process is witnessed as it should be, and it is the process that it was at
first. -/
structure Watched (start p : Supervised σ) : Prop where
  witnessed : Witnessed p.finished p.steps
  pid : p.pid = start.pid
  grace : p.grace = start.grace

namespace Watched

variable {start : Supervised σ}

/-- As long as the process does not count as finished, no step shows its exit. -/
theorem unseen (h : Watched start p) (hp : p.finished = false) : ∀ s ∈ p.steps, ¬ s.ShowsExit := by
  have hwitnessed := h.witnessed
  rw [hp] at hwitnessed
  cases hwitnessed with
  | running unseen => exact unseen

theorem waitForExit (h : Watched start p) (os : OperatingSystem σ) (timeout : Duration) :
    Watched start (p.waitForExit os timeout).2 := by
  cases hfinished : p.finished with
  | true =>
    rw [(waitForExit_of_finished hfinished os timeout).1]
    exact h
  | false =>
    cases hdeadline : p.deadline? timeout with
    | none =>
      rw [waitForExit_of_none hdeadline]
      exact h
    | some deadline =>
      have hwaited := waitUntil_waited hfinished os deadline
      obtain ⟨hpid, hgrace⟩ := hwaited.same
      rw [waitForExit_of_some hdeadline]
      exact ⟨hwaited.witnessed hfinished (h.unseen hfinished), hpid.trans h.pid,
        hgrace.trans h.grace⟩

theorem terminate (h : Watched start p) (os : OperatingSystem σ) :
    Watched start (p.terminate os).2 := by
  cases hfinished : p.finished with
  | true =>
    rw [terminate_of_finished hfinished]
    exact h
  | false =>
    have hterminated := terminate_terminated hfinished os
    obtain ⟨hpid, hgrace⟩ := hterminated.same
    exact ⟨hterminated.witnessed hfinished (h.unseen hfinished), hpid.trans h.pid,
      hgrace.trans h.grace⟩

end Watched

/-- Whatever is done, the process is watched as it should be. -/
theorem Reached.watched {start : Supervised σ} (h : Reached os start p)
    (hstart : start.finished = false) (hsteps : start.steps = []) : Watched start p := by
  induction h with
  | start =>
    refine ⟨?_, rfl, rfl⟩
    rw [hstart, hsteps]
    exact .running (List.forall_mem_nil _)
  | waitForExit timeout before ih => exact ih.waitForExit os timeout
  | terminate before ih => exact ih.terminate os
  | drop before ih => exact ih.terminate os

/-- A process that was seen to exit is reached from itself only. -/
theorem Reached.eq_of_finished (h : Reached os p p') (hp : p.finished = true) : p' = p := by
  induction h with
  | start => rfl
  | waitForExit timeout before ih =>
    rw [ih]
    exact (waitForExit_of_finished hp os timeout).1
  | terminate before ih => rw [ih, terminate_of_finished hp]
  | drop before ih => rw [ih, Supervised.drop, terminate_of_finished hp]

/-! ## What a wait and an end do -/

/-- A wait polls and sleeps, and says whether the exit was seen. -/
theorem exists_steps_waitForExit (hp : p.finished = false) (os : OperatingSystem σ)
    (timeout : Duration) :
    ∃ new, (p.waitForExit os timeout).2.steps = new ++ p.steps ∧
      (∀ s ∈ new, s.IsWaiting ∨ s = .polled .exited) ∧
      ((p.waitForExit os timeout).1 = .overflow ∧ p.deadline? timeout = none ∨
        (p.waitForExit os timeout).1 = .done (p.waitForExit os timeout).2.finished) := by
  cases hdeadline : p.deadline? timeout with
  | none =>
    rw [waitForExit_of_none hdeadline]
    exact ⟨[], rfl, by simp, Or.inl ⟨rfl, rfl⟩⟩
  | some deadline =>
    have hwaited := waitUntil_waited hp os deadline
    rw [waitForExit_of_some hdeadline]
    rcases hwait : p.waitUntil os deadline with ⟨exited, q⟩
    rw [hwait] at hwaited
    cases hwaited with
    | @exited system clock waiting calm =>
      refine ⟨.polled .exited :: waiting, rfl, ?_, Or.inr rfl⟩
      exact List.forall_mem_cons.2 ⟨Or.inr rfl, fun s hs => Or.inl (calm s hs)⟩
    | @late system clock waiting calm late =>
      refine ⟨waiting, rfl, fun s hs => Or.inl (calm s hs), Or.inr ?_⟩
      rw [hp]

/-- The steps of an end that kills: the process was asked to exit and waited for in vain, for as
long as its grace, and then it was killed and waited for. -/
structure Kills (p p' : Supervised σ) (kill : Except OsError Unit)
    (new : List SupervisionStep) : Prop where
  order : ∃ first asked waiting reap, first ≠ PollAnswer.exited ∧ Asked p.pid asked ∧
    (∀ s ∈ waiting, IsWaiting s) ∧
    new = .reaped reap :: .killed kill :: (waiting ++ (asked ++ [.polled first]))
  late : p.clock + p.grace.toNanos ≤ p'.clock

section Kills

variable {first : PollAnswer} {asked waiting : List SupervisionStep}

/-- Up to the end of the grace nothing is killed. -/
theorem killed_not_mem_asked {kill : Except OsError Unit} (asks : Asked p.pid asked)
    (calm : ∀ s ∈ waiting, s.IsWaiting) :
    .killed kill ∉ waiting ++ (asked ++ [.polled first]) := by
  intro hmem
  rcases List.mem_append.1 hmem with hmem | hmem
  · nomatch calm _ hmem
  · cases asks with
    | sent _ => simp at hmem
    | skipped _ => simp at hmem

/-- Whatever is killed after the grace was asked to exit before it. -/
theorem kills_of_mem {kill kill' reap : Except OsError Unit} (running : first ≠ .exited)
    (asks : Asked p.pid asked) (calm : ∀ s ∈ waiting, s.IsWaiting)
    (late : p.clock + p.grace.toNanos ≤ p'.clock)
    (hkill : .killed kill' ∈ SupervisionStep.reaped reap :: .killed kill ::
      (waiting ++ (asked ++ [.polled first]))) :
    Kills p p' kill' (.reaped reap :: .killed kill ::
      (waiting ++ (asked ++ [.polled first]))) := by
  rcases List.mem_cons.1 hkill with hkill | hkill
  · nomatch hkill
  · rcases List.mem_cons.1 hkill with hkill | hkill
    · obtain rfl := SupervisionStep.killed.inj hkill
      exact ⟨⟨first, asked, waiting, reap, running, asks, calm, rfl⟩, late⟩
    · exact absurd hkill (killed_not_mem_asked asks calm)

end Kills

/-- An end that kills does so after the grace, and one that leaves the process unfinished has killed
it and could not wait for its end. -/
theorem Terminated.exists_steps {finish : Finish Unit} (h : Terminated p finish p') :
    ∃ new, p'.steps = new ++ p.steps ∧ (∀ kill, .killed kill ∈ new → Kills p p' kill new) ∧
      (finish = .done () → p'.finished = false →
        ∃ kill e earlier, new = .reaped (.error e) :: .killed kill :: earlier) := by
  have hasked : ∀ (waiting asked : List SupervisionStep) first,
      waiting ++ (asked ++ .polled first :: p.steps) =
        (waiting ++ (asked ++ [.polled first])) ++ p.steps := by
    simp
  cases h with
  | exited => exact ⟨[_], rfl, by simp, fun _ hfinished => nomatch hfinished⟩
  | @outOfRange first asked system running asks beyond =>
    refine ⟨asked ++ [.polled first], by simp, fun kill hkill => ?_, fun hdone => nomatch hdone⟩
    exact absurd hkill (killed_not_mem_asked asks (List.forall_mem_nil _))
  | @obeyed first asked waiting system clock running asks calm =>
    refine ⟨.polled .exited :: (waiting ++ (asked ++ [.polled first])), ?_, ?_,
      fun _ hfinished => nomatch hfinished⟩
    · rw [hasked, List.cons_append]
    · intro kill hkill
      rcases List.mem_cons.1 hkill with hkill | hkill
      · nomatch hkill
      · exact absurd hkill (killed_not_mem_asked asks calm)
  | @killed first kill asked waiting system clock running asks calm late =>
    refine ⟨.reaped (.ok ()) :: .killed kill :: (waiting ++ (asked ++ [.polled first])), ?_,
      fun _ hkill => kills_of_mem running asks calm late hkill,
      fun _ hfinished => nomatch hfinished⟩
    rw [hasked, List.cons_append, List.cons_append]
  | @lost first kill e asked waiting system clock running asks calm late =>
    refine ⟨.reaped (.error e) :: .killed kill :: (waiting ++ (asked ++ [.polled first])), ?_,
      fun _ hkill => kills_of_mem running asks calm late hkill, fun _ _ => ⟨kill, e, _, rfl⟩⟩
    rw [hasked, List.cons_append, List.cons_append]

/-- A process that is watched over from its start, after anything that is done with it, and for
every operating system: any poll, any request and the last wait may fail.

It counts as finished exactly if the latest step has shown its exit.  From then on it has no number,
and nothing is asked of the system or done any more.  Before that it has its number, and a wait only
polls and sleeps.  An end, also the one of a process that is let go of, kills it only after it was
asked to exit, whether or not that was refused, and after a grace in which no exit was seen; the
request is left out only if the number of the process is out of range.  An end that leaves it
unfinished has killed it and could not wait for its end. -/
theorem supervision_spec (os : OperatingSystem σ) {start p : Supervised σ}
    (hstart : start.finished = false) (hsteps : start.steps = []) (h : Reached os start p) :
    Witnessed p.finished p.steps ∧
    (p.finished = true →
      p.id? = none ∧ p.terminate os = (.done (), p) ∧ p.drop os = (.done (), p) ∧
      (∀ timeout, p.deadline? timeout ≠ none → p.waitForExit os timeout = (.done true, p)) ∧
      ∀ p', Reached os p p' → p' = p) ∧
    (p.finished = false →
      p.id? = some start.pid ∧ p.grace = start.grace ∧
      (∀ timeout, ∃ new, (p.waitForExit os timeout).2.steps = new ++ p.steps ∧
        (∀ s ∈ new, s.IsWaiting ∨ s = .polled .exited) ∧
        ((p.waitForExit os timeout).1 = .overflow ∧ p.deadline? timeout = none ∨
          (p.waitForExit os timeout).1 = .done (p.waitForExit os timeout).2.finished)) ∧
      ∀ finish p', p.terminate os = (finish, p') ∨ p.drop os = (finish, p') →
        ∃ new, p'.steps = new ++ p.steps ∧ (∀ kill, .killed kill ∈ new → Kills p p' kill new) ∧
          (finish = .done () → p'.finished = false →
            ∃ kill e earlier, new = .reaped (.error e) :: .killed kill :: earlier)) := by
  have hwatched := h.watched hstart hsteps
  refine ⟨hwatched.witnessed, fun hp => ?_, fun hp => ?_⟩
  · have hend := terminate_of_finished hp os
    refine ⟨?_, hend, hend, ?_, fun p' h' => h'.eq_of_finished hp⟩
    · rw [id?, if_pos hp]
    · intro timeout hrange
      obtain ⟨hsame, hanswer⟩ := waitForExit_of_finished hp os timeout
      exact Prod.ext (hanswer hrange) hsame
  · refine ⟨?_, hwatched.grace, exists_steps_waitForExit hp os, ?_⟩
    · rw [id?, if_neg (by simp [hp]), hwatched.pid]
    · intro finish p' hend
      have hend : p.terminate os = (finish, p') := hend.elim id id
      have hterminated := terminate_terminated hp os
      rw [hend] at hterminated
      exact hterminated.exists_steps

/-- A process that has exited by itself when it is to be ended. -/
theorem supervision_spec_exited :
    let os : OperatingSystem Unit :=
      { poll _ s := (.exited, s), requestExit _ s := (.ok (), s), kill _ s := (.ok (), s)
        reap _ s := (.ok (), s), oversleep _ s := (0, s) }
    let start : Supervised Unit :=
      { pid := 7, binary := "d", grace := .ofSecs 5, clock := 0, system := () }
    let p := (start.terminate os).2
    start.finished = false ∧ start.steps = [] ∧ Reached os start p ∧ p.finished = true ∧
      start.id? = some 7 ∧ p.id? = none ∧ ∀ p', Reached os p p' → p' = p := by
  intro os start p
  have hreached : Reached os start p := .terminate .start
  have hfirst : Reached os start start := .start
  obtain ⟨-, -, hbefore⟩ := supervision_spec os rfl rfl hfirst
  obtain ⟨-, hafter, -⟩ := supervision_spec os rfl rfl hreached
  obtain ⟨hid, -, -, -, hself⟩ := hafter rfl
  exact ⟨rfl, rfl, hreached, rfl, (hbefore rfl).1, hid, hself⟩

end Supervised

end DaemonRpc
