import DaemonRpc.Process.Launch
import DaemonRpc.Proofs.Process.Polling

/-!
# The grace of a process

Who ends a process asks it to exit, gives it its grace, and kills it then.  The end of the grace is
a time on the clock, which has to reach it.

* `Obeys` is a system that does what it is asked, and `Tells` one whose polls show when the process
  exits: by itself, because it was asked to, or never.
* `Looping.polls_iff` and `Looping.time_le` follow the polls of a wait in such a system.
* `terminate_of_range` and `terminate_of_beyond` are the two ways an end can go, and
  `ended_of_exited` and `ended_of_range` what comes of it.
* `terminate_completes_iff` says which ends are carried through, and which processes are killed.
-/

namespace DaemonRpc.Supervised

variable {σ : Type} {os : OperatingSystem σ} {p p' : Supervised σ} {deadline : Nat}

/-! ## Systems -/

/-- The system passes on the request to exit, kills, and waits for the end of what it has killed. -/
structure Obeys (os : OperatingSystem σ) : Prop where
  requestExit : ∀ time s, (os.requestExit time s).1 = .ok ()
  kill : ∀ time s, (os.kill time s).1 = .ok ()
  reap : ∀ time s, (os.reap time s).1 = .ok ()

/-- A process that exits at the given time, if at all, has exited by another. -/
def ExitedBy (exit : Option Nat) (time : Nat) : Prop := ∃ t ∈ exit, t ≤ time

theorem ExitedBy.mono {exit : Option Nat} {a b : Nat} (h : ExitedBy exit a) (hab : a ≤ b) :
    ExitedBy exit b := by
  obtain ⟨t, ht, hle⟩ := h
  exact ⟨t, ht, Nat.le_trans hle hab⟩

/-- As things stand the process exits at the time `exitAt`, if at all: the polls show it, and
neither a poll nor a sleep changes it.  A request to exit may change it in any way. -/
structure Tells (os : OperatingSystem σ) (exitAt : σ → Option Nat) : Prop where
  poll : ∀ time s, (os.poll time s).1 = .exited ↔ ExitedBy (exitAt s) time
  exitAt_poll : ∀ time s, exitAt (os.poll time s).2 = exitAt s
  exitAt_oversleep : ∀ time s, exitAt (os.oversleep time s).2 = exitAt s

theorem Tells.exitAt_turned {exitAt : σ → Option Nat} (h : Tells os exitAt) (deadline : Nat)
    (p : Supervised σ) : exitAt (p.turned os deadline).system = exitAt p.system := by
  simp only [turned, sleep, note, poll_eq]
  rw [h.exitAt_oversleep, h.exitAt_poll]

/-- The polls of a wait see the exit from its time on. -/
theorem Looping.polls_iff {exitAt : σ → Option Nat} (htells : Tells os exitAt) {turns : List Turn}
    {last : Look} (h : Looping os deadline p turns last p') :
    ∀ l ∈ polls turns last, l.answer = .exited ↔ ExitedBy (exitAt p.system) l.time := by
  induction h with
  | @last p _ => exact List.forall_mem_singleton.2 (htells.poll _ _)
  | @turn p _ _ _ _ _ _ ih =>
    rw [htells.exitAt_turned] at ih
    exact List.forall_mem_cons.2 ⟨htells.poll _ _, ih⟩

/-- If no sleep takes longer than it was asked to, a wait is not longer than it should be. -/
theorem Looping.time_le (hexact : ∀ time s, (os.oversleep time s).1 = 0) {turns : List Turn}
    {last : Look} (h : Looping os deadline p turns last p') :
    last.time ≤ max p.clock deadline := by
  induction h with
  | last _ => exact Nat.le_max_left _ _
  | @turn p _ _ _ _ early _ ih =>
    have hclock :
        (p.turned os deadline).clock = p.clock + min pollInterval (deadline - p.clock) := by
      simp only [turned, sleep, note, clock_poll, hexact]
      rfl
    omega

/-- If no sleep takes longer than it was asked to, the last poll sees an exit exactly if that is not
after the deadline. -/
theorem Looping.exited_iff_of_exact (hexact : ∀ time s, (os.oversleep time s).1 = 0)
    {exitAt : σ → Option Nat} (htells : Tells os exitAt) {turns : List Turn} {last : Look}
    (h : Looping os deadline p turns last p') (hbegin : p.clock ≤ deadline) :
    last.answer = .exited ↔ ExitedBy (exitAt p.system) deadline := by
  have hsees := h.polls_iff htells last (by simp [polls])
  constructor
  · intro hexited
    have hearly := h.time_le hexact
    rw [Nat.max_eq_right hbegin] at hearly
    exact (hsees.1 hexited).mono hearly
  · intro hexit
    by_contra hrunning
    obtain ⟨-, hlate⟩ := h.last_spec
    exact hrunning (hsees.2 (hexit.mono (hlate hrunning)))

/-! ## Up to the wait -/

/-- The process is known to have exited, or a poll shows it now. -/
def Exited (os : OperatingSystem σ) (p : Supervised σ) : Prop :=
  p.finished = true ∨ (p.look os).answer = .exited

theorem finished_of_running (h : ¬ p.Exited os) : p.finished = false := by
  rw [← Bool.not_eq_true]
  exact fun hfinished => h (Or.inl hfinished)

/-- The process when it was polled and asked to exit. -/
def asked (os : OperatingSystem σ) (p : Supervised σ) : Supervised σ := (p.poll os).2.requestExit os

/-- The request to exit changes nothing but the system and what was done. -/
theorem asked_eq (os : OperatingSystem σ) (p : Supervised σ) :
    ∃ system steps, p.asked os = { (p.poll os).2 with system, steps } := by
  obtain ⟨asked, system, -, hrequest⟩ := exists_asked_requestExit os (p.poll os).2
  exact ⟨system, _, hrequest⟩

theorem clock_asked (os : OperatingSystem σ) (p : Supervised σ) : (p.asked os).clock = p.clock := by
  obtain ⟨system, steps, hasked⟩ := asked_eq os p
  rw [hasked]
  exact clock_poll os p

theorem pid_asked (os : OperatingSystem σ) (p : Supervised σ) : (p.asked os).pid = p.pid := by
  obtain ⟨system, steps, hasked⟩ := asked_eq os p
  rw [hasked, poll_eq]

theorem finished_asked (h : ¬ p.Exited os) : (p.asked os).finished = false := by
  have hanswer : (p.look os).answer ≠ .exited := fun hexited => h (Or.inr hexited)
  obtain ⟨system, steps, hasked⟩ := asked_eq os p
  simp [hasked, poll_eq, finished_of_running h, hanswer]

/-- What was done up to the wait. -/
def asking (os : OperatingSystem σ) (p : Supervised σ) : List SupervisionStep :=
  (if p.pid ≤ lastPid then [.exitRequested (.ok ())] else []) ++ [.polled (p.look os).answer]

theorem steps_asked (hobeys : Obeys os) (p : Supervised σ) :
    (p.asked os).steps = p.asking os ++ p.steps := by
  have hpid : (p.poll os).2.pid = p.pid := by rw [poll_eq]
  have hsteps : (p.poll os).2.steps = .polled (p.look os).answer :: p.steps := by rw [poll_eq]
  rw [asked, requestExit, asking, hpid]
  split
  · simp only [note, hobeys.requestExit, hsteps]
    rfl
  · exact hsteps

/-- The end of a process that has not exited, as far as the wait. -/
theorem terminate_of_not_exited (h : ¬ p.Exited os) :
    p.terminate os = afterGrace os ((p.asked os).waitForExit os p.grace) := by
  have hseen : p.hasExited os = (false, (p.poll os).2) := by
    have hanswer : (p.look os).answer ≠ .exited := fun hexited => h (Or.inr hexited)
    rw [hasExited_eq_poll (finished_of_running h), poll_eq, decide_eq_false hanswer]
  have hgrace : (p.poll os).2.grace = p.grace := by rw [poll_eq]
  rw [terminate_of_running hseen, hgrace, asked]

/-! ## How an end goes -/

/-- A kill that is carried out, and the wait for its end. -/
theorem forceKill_of_obeys (hobeys : Obeys os) (p : Supervised σ) :
    p.forceKill os = { p with
      system := (p.forceKill os).system
      finished := true
      steps := .reaped (.ok ()) :: .killed (.ok ()) :: p.steps } := by
  rcases hkill : os.kill p.clock p.system with ⟨kill, system⟩
  rcases hreap : os.reap p.clock system with ⟨reap, system'⟩
  obtain rfl : kill = .ok () := (congrArg Prod.fst hkill).symm.trans (hobeys.kill _ _)
  obtain rfl : reap = .ok () := (congrArg Prod.fst hreap).symm.trans (hobeys.reap _ _)
  simp only [forceKill, note, hkill, hreap]

/-- The end of a process that has not exited, within a grace that the clock can reach: the process
is asked to exit and waited for, and it is killed if the last poll has not seen its exit. -/
theorem terminate_of_range (hrunning : ¬ p.Exited os)
    (hrange : p.clock + p.grace.toNanos < clockSeconds * Duration.nanosPerSec) :
    ∃ turns last waited, Looping os (p.clock + p.grace.toNanos) (p.asked os) turns last waited ∧
      p.terminate os =
        (.done (), if last.answer = .exited then waited else waited.forceKill os) := by
  have hdeadline : (p.asked os).deadline? p.grace = some (p.clock + p.grace.toNanos) := by
    rw [deadline?_eq (clock_asked os p)]
    apply deadline?_of_ne_none
    rw [ne_eq, deadline?_eq_none_iff]
    exact Nat.not_le_of_lt hrange
  obtain ⟨turns, last, hloop, hanswer⟩ :=
    looping_waitUntil (finished_asked hrunning) os (p.clock + p.grace.toNanos)
  refine ⟨turns, last, _, hloop, ?_⟩
  rw [terminate_of_not_exited hrunning, waitForExit_of_some hdeadline, hanswer]
  by_cases hexited : last.answer = .exited
  · rw [decide_eq_true hexited, if_pos hexited, afterGrace]
  · rw [decide_eq_false hexited, if_neg hexited, afterGrace]

/-- The end of a process that has not exited, and whose grace the clock cannot reach: it breaks off
when the process was asked to exit. -/
theorem terminate_of_beyond (hrunning : ¬ p.Exited os)
    (hbeyond : clockSeconds * Duration.nanosPerSec ≤ p.clock + p.grace.toNanos) :
    p.terminate os = (.overflow, p.asked os) := by
  have hdeadline : (p.asked os).deadline? p.grace = none := by
    rw [deadline?_eq (clock_asked os p), deadline?_eq_none_iff]
    exact hbeyond
  rw [terminate_of_not_exited hrunning, waitForExit_of_none hdeadline, afterGrace]

/-! ## Kills -/

/-- Something is killed in these steps. -/
def HasKill (steps : List SupervisionStep) : Prop := ∃ answer, .killed answer ∈ steps

theorem not_hasKill_of_waiting {turns : List Turn} {answer : PollAnswer} (os : OperatingSystem σ)
    (p : Supervised σ) :
    ¬ HasKill (.polled answer :: (turns.reverse.flatMap Turn.steps ++ p.asking os)) := by
  rintro ⟨kill, hkill⟩
  simp [Turn.steps, asking] at hkill

/-- The end of a process that has exited asks for nothing and kills nothing. -/
theorem ended_of_exited (h : p.Exited os) :
    ∃ p' new, p.terminate os = (.done (), p') ∧ p'.finished = true ∧ p'.steps = new ++ p.steps ∧
      ∀ s ∈ new, s = .polled .exited := by
  by_cases hp : p.finished = true
  · exact ⟨p, [], terminate_of_finished hp os, hp, rfl, List.forall_mem_nil _⟩
  · rw [Bool.not_eq_true] at hp
    have hexited : (p.look os).answer = .exited := h.resolve_left (by simp [hp])
    have hseen := poll_eq os p
    rw [hexited, decide_eq_true rfl, Bool.or_true] at hseen
    refine ⟨(p.poll os).2, [.polled .exited], ?_, ?_, ?_, List.forall_mem_singleton.2 rfl⟩
    · rw [terminate, hasExited_eq_poll hp, hseen]
      rfl
    · rw [hseen]
    · rw [hseen]
      rfl

/-- What comes of the end of a process that has not exited, within a grace that the clock can
reach: the last poll sees its exit, or it is killed. -/
theorem ended_of_range (hobeys : Obeys os) (hrunning : ¬ p.Exited os)
    (hrange : p.clock + p.grace.toNanos < clockSeconds * Duration.nanosPerSec) :
    ∃ turns last waited p' new,
      Looping os (p.clock + p.grace.toNanos) (p.asked os) turns last waited ∧
      p.terminate os = (.done (), p') ∧ p'.finished = true ∧ p'.clock = last.time ∧
      p'.steps = new ++ p.steps ∧ (HasKill new ↔ last.answer ≠ .exited) := by
  obtain ⟨turns, last, waited, hloop, hend⟩ := terminate_of_range hrunning hrange
  obtain ⟨htime, -⟩ := hloop.last_spec
  let waiting := .polled last.answer :: (turns.reverse.flatMap Turn.steps ++ p.asking os)
  have hsteps : waited.steps = waiting ++ p.steps := by
    rw [hloop.steps_eq, steps_asked hobeys, ← List.append_assoc]
    rfl
  by_cases hexited : last.answer = .exited
  · rw [if_pos hexited] at hend
    refine ⟨turns, last, waited, waited, waiting, hloop, hend, ?_, htime.symm, hsteps, ?_⟩
    · rw [hloop.finished_eq (finished_asked hrunning), decide_eq_true hexited]
    · exact ⟨fun hkill => absurd hkill (not_hasKill_of_waiting os p), fun h => absurd hexited h⟩
  · rw [if_neg hexited, forceKill_of_obeys hobeys, hsteps] at hend
    refine ⟨turns, last, waited, _, .reaped (.ok ()) :: .killed (.ok ()) :: waiting, hloop, hend,
      rfl, htime.symm, rfl, ?_⟩
    exact ⟨fun _ => hexited, fun _ => ⟨.ok (), by simp⟩⟩

/-! ## The processes of a launch -/

/-- A process that was just launched. -/
theorem launch_spec {c : LaunchConfig} {answers : LaunchAnswers} {time : Nat} {state : σ}
    {start : Supervised σ} (h : c.launch answers time state = .ok start) :
    start.finished = false ∧ start.steps = [] ∧ start.grace = c.grace := by
  unfold LaunchConfig.launch at h
  split at h
  · obtain rfl := Except.ok.inj h
    exact ⟨rfl, rfl, rfl⟩
  · nomatch h

/-- A launched process that is ended or let go of, with any grace and after anything that was done
with it, in a system that does what it is asked.

The end is carried through unless the process has not exited and its grace ends beyond the range of
the clock.  In that case it breaks off when the process was asked to exit: that is not waited for,
and the process is neither killed nor waited for.

An end that is carried through leaves a process that is known to have exited.  It has killed it
exactly if the process was still running when its grace ended, which is at the end of the wait if
sleeps may take longer than they were asked to, and at the very end of the grace if they do not. -/
theorem terminate_completes_iff {c : LaunchConfig} {answers : LaunchAnswers} {time : Nat}
    {state : σ} {start p p' : Supervised σ} {finish : Finish Unit}
    (hlaunch : c.launch answers time state = .ok start) (hreached : Reached os start p)
    (hobeys : Obeys os) (hend : p.terminate os = (finish, p') ∨ p.drop os = (finish, p')) :
    let due := p.clock + c.grace.toNanos
    (finish = .done () ↔ p.Exited os ∨ due < clockSeconds * Duration.nanosPerSec) ∧
    (finish = .overflow → p'.id? = some start.pid ∧ p'.steps = p.asking os ++ p.steps) ∧
    (finish = .done () → p'.id? = none ∧ ∃ new, p'.steps = new ++ p.steps ∧
      (HasKill new → due ≤ p'.clock) ∧
      ∀ exitAt, Tells os exitAt →
        let exit := exitAt (p.asked os).system
        (HasKill new ↔ ¬ p.Exited os ∧ ¬ ExitedBy exit p'.clock) ∧
        ((∀ time s, (os.oversleep time s).1 = 0) →
          (HasKill new ↔ ¬ p.Exited os ∧ ¬ ExitedBy exit due))) := by
  intro due
  have hend : p.terminate os = (finish, p') := hend.elim id id
  obtain ⟨hstart, hsteps, hgrace⟩ := launch_spec hlaunch
  have hwatched := hreached.watched hstart hsteps
  have hdue : due = p.clock + p.grace.toNanos := by rw [hwatched.grace, hgrace]
  by_cases hexited : p.Exited os
  · obtain ⟨q, new, hdone, hfinished, hnew, hpolls⟩ := ended_of_exited hexited
    obtain ⟨rfl, rfl⟩ := Prod.mk.inj (hend.symm.trans hdone)
    have hnot : ¬ HasKill new := by
      rintro ⟨answer, hkill⟩
      cases hpolls _ hkill
    refine ⟨by simp [hexited], by simp, fun _ => ⟨if_pos hfinished, new, hnew, ?_, ?_⟩⟩
    · exact fun hkill => absurd hkill hnot
    · intro exitAt _ exit
      simp [hnot, hexited]
  by_cases hrange : due < clockSeconds * Duration.nanosPerSec
  · rw [hdue] at hrange
    obtain ⟨turns, last, waited, q, new, hloop, hdone, hfinished, htime, hnew, hkill⟩ :=
      ended_of_range hobeys hexited hrange
    obtain ⟨rfl, rfl⟩ := Prod.mk.inj (hend.symm.trans hdone)
    obtain ⟨-, hlate⟩ := hloop.last_spec
    rw [← hdue] at hrange hloop hlate
    refine ⟨by simp [hrange], by simp, fun _ => ⟨if_pos hfinished, new, hnew, ?_, ?_⟩⟩
    · intro hkilled
      rw [htime]
      exact hlate (hkill.1 hkilled)
    · intro exitAt htells exit
      have hlast := hloop.polls_iff htells last (by simp [polls])
      rw [htime, hkill, ← hlast]
      refine ⟨by simp [hexited], fun hexact => ?_⟩
      have hbegin : (p.asked os).clock ≤ due := by
        rw [clock_asked]
        exact Nat.le_add_right _ _
      rw [← hloop.exited_iff_of_exact hexact htells hbegin]
      simp [hexited]
  · have hbeyond := Nat.le_of_not_lt hrange
    rw [hdue] at hbeyond
    obtain ⟨rfl, rfl⟩ := Prod.mk.inj (hend.symm.trans (terminate_of_beyond hexited hbeyond))
    refine ⟨by simp [hexited, hrange], fun _ => ⟨?_, steps_asked hobeys p⟩, by simp⟩
    rw [id?, if_neg (by simp [finished_asked hexited]), pid_asked, hwatched.pid]

/-! ### A process that takes a while -/

/-- A system whose state is the time at which its process exits: a fifth of a second after it is
asked to, or never. -/
def slow : OperatingSystem (Option Nat) where
  poll time exit := (if exit.any (· ≤ time) then .exited else .running, exit)
  requestExit time _ := (.ok (), some (time + 200_000_000))
  kill _ exit := (.ok (), exit)
  reap _ exit := (.ok (), exit)
  oversleep _ exit := (0, exit)

theorem slow_obeys : Obeys slow := ⟨fun _ _ => rfl, fun _ _ => rfl, fun _ _ => rfl⟩

theorem slow_tells : Tells slow id where
  poll time exit := by
    cases exit with
    | none => simp [slow, ExitedBy]
    | some t => simp [slow, ExitedBy]
  exitAt_poll _ _ := rfl
  exitAt_oversleep _ _ := rfl

/-- A machine on which every launch succeeds. -/
def willing : LaunchAnswers where
  lookUp := .ok
  makeDirectoryOf _ := .ok ()
  makeFile _ := .ok ()
  start _ _ := .ok 7

/-- A process that was launched at the given time, with a grace. -/
def launched (grace : Duration) (time : Nat) : Supervised (Option Nat) where
  pid := 7
  binary := "d"
  grace := grace
  clock := time
  system := none

/-- How that process is launched. -/
def patient (grace : Duration) : LaunchConfig :=
  .apply { binary := "d", account := "user", secret := "pw" } (.grace grace)

theorem launch_patient (grace : Duration) (time : Nat) :
    (patient grace).launch willing time none = .ok (launched grace time) := rfl

theorem launched_running (grace : Duration) (time : Nat) :
    ¬ (launched grace time).Exited slow := by
  rintro (hfinished | hexited)
  · nomatch hfinished
  · nomatch hexited

/-- A grace that is shorter than the process needs. -/
theorem terminate_completes_iff_slow :
    let start := launched (.ofMillis 150) 1_000_000_000
    (patient (.ofMillis 150)).launch willing 1_000_000_000 none = .ok start ∧
      Reached slow start start ∧ Obeys slow ∧ Tells slow id ∧
      ∃ p' new, start.terminate slow = (.done (), p') ∧
        p'.id? = none ∧ p'.steps = new ++ start.steps ∧ HasKill new := by
  intro start
  have hlaunch := launch_patient (.ofMillis 150) 1_000_000_000
  rcases hend : start.terminate slow with ⟨finish, p'⟩
  obtain ⟨hcompletes, -, hdone⟩ := terminate_completes_iff hlaunch .start slow_obeys (Or.inl hend)
  obtain rfl : finish = .done () := hcompletes.2 (Or.inr (by decide))
  obtain ⟨hid, new, hnew, -, hkill⟩ := hdone rfl
  refine ⟨hlaunch, .start, slow_obeys, slow_tells, p', new, rfl, hid, hnew, ?_⟩
  -- it would exit a fifth of a second after its launch
  obtain ⟨-, hexact⟩ := hkill id slow_tells
  refine (hexact fun _ _ => rfl).2 ⟨launched_running _ _, ?_⟩
  rintro ⟨t, ht, hle⟩
  obtain rfl : 1_200_000_000 = t := Option.some.inj ht
  exact absurd hle (by decide)

/-- The longest grace there is: the clock cannot reach its end. -/
theorem terminate_longest_grace :
    let start := launched .maximum 1_000_000_000
    (patient .maximum).launch willing 1_000_000_000 none = .ok start ∧ Obeys slow ∧ ∃ p',
      start.terminate slow = (.overflow, p') ∧ start.drop slow = (.overflow, p') ∧
        p'.id? = some 7 ∧ ¬ HasKill p'.steps := by
  intro start
  have hbeyond : clockSeconds * Duration.nanosPerSec ≤ start.clock + start.grace.toNanos := by
    decide
  have hbreaks : start.terminate slow = (.overflow, start.asked slow) :=
    terminate_of_beyond (launched_running _ _) hbeyond
  refine ⟨launch_patient _ _, slow_obeys, start.asked slow, hbreaks, hbreaks, rfl, ?_⟩
  rintro ⟨answer, hkill⟩
  rw [steps_asked slow_obeys] at hkill
  simp [asking, start, launched] at hkill

end DaemonRpc.Supervised
