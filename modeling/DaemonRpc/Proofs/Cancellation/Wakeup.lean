import DaemonRpc.Cancellation.Wakeup
import DaemonRpc.Proofs.Update

/-!
# No waiter misses a cancellation

A waiter registers before it looks at the flag, and a canceller raises the flag before it notifies.
So a waiter that saw the flag down was registered when the notification went out.

* `step_cases` is all that one step can do.
* `Alarmed` are the states in which the flag is up and nobody is about to sleep through it.  A
  canceller that finishes brings one about, and no step leads out of it.
* `stepsLeft` counts what a waiter still has to do in such a state, and `Alarmed.follow` is its
  account over any number of steps.
* `no_lost_wakeup` is what holds in every state that can be reached.
-/

namespace DaemonRpc.Signal

variable {s s' : Signal}

/-! ## One step -/

/-- A step is that of a waiter, or a canceller raises the flag, or a canceller notifies. -/
theorem step_cases {actor : Actor} (h : s.step actor = some s') :
    (∃ i w w', actor = .waiter i ∧ s.waiters[i]? = some w ∧ waiterStep s.flag w = some w' ∧
        s' = { s with waiters := s.waiters.set i w' }) ∨
      (∃ i, actor = .canceller i ∧ s.cancellers[i]? = some .idle ∧
        s' = { s with flag := true, cancellers := s.cancellers.set i .raised }) ∨
      ∃ i, actor = .canceller i ∧ s.cancellers[i]? = some .raised ∧
        s' = { s with waiters := s.waiters.map notify,
                      cancellers := s.cancellers.set i .finished } := by
  cases actor with
  | waiter i =>
    simp only [step, Option.bind_eq_bind, Option.bind_eq_some_iff] at h
    obtain ⟨w, hw, w', hw', hs'⟩ := h
    exact Or.inl ⟨i, w, w', rfl, hw, hw', (Option.some.inj hs').symm⟩
  | canceller i =>
    simp only [step] at h
    split at h
    · rename_i hidle
      exact Or.inr (Or.inl ⟨i, rfl, hidle, (Option.some.inj h).symm⟩)
    · rename_i hraised
      exact Or.inr (Or.inr ⟨i, rfl, hraised, (Option.some.inj h).symm⟩)
    · exact absurd h (by simp)

/-- Several steps are the first of them and then the others. -/
theorem follow_cons_eq_some_iff {actor : Actor} {actors : List Actor} :
    s.follow (actor :: actors) = some s' ↔
      ∃ r, s.step actor = some r ∧ r.follow actors = some s' := by
  simp only [follow, List.foldlM_cons, Option.bind_eq_bind, Option.bind_eq_some_iff]

/-- A notification does not move a waiter. -/
@[simp] theorem phase_notify (w : Waiter) : (notify w).phase = w.phase := by
  unfold notify
  split <;> rfl

/-- A waiter that has seen the flag down has been told meanwhile. -/
def Told (w : Waiter) : Prop := w.phase = .checked ∨ w.phase = .blocked → w.notified = true

/-- A notification reaches every waiter that has seen the flag down. -/
theorem told_notify (w : Waiter) : Told (notify w) := by
  intro hphase
  rw [phase_notify] at hphase
  have hlistening : listening w = true := by
    rcases hphase with hphase | hphase
    · simp [listening, hphase]
    · simp [listening, hphase]
  rw [notify, if_pos hlistening]

/-- A waiter returns only when it sees the flag up. -/
theorem flag_of_returned {flag : Bool} {w w' : Waiter} (h : waiterStep flag w = some w')
    (hreturned : w'.phase = .returned) : flag = true := by
  unfold waiterStep at h
  cases hphase : w.phase with
  | registered =>
    rw [hphase] at h
    obtain rfl := Option.some.inj h
    cases flag with
    | true => rfl
    | false => exact absurd hreturned (by simp)
  | checked =>
    rw [hphase] at h
    obtain rfl := Option.some.inj h
    split at hreturned
    · exact absurd hreturned (by simp)
    · exact absurd hreturned (by simp)
  | outside =>
    rw [hphase] at h
    obtain rfl := Option.some.inj h
    exact absurd hreturned (by simp)
  | blocked =>
    rw [hphase] at h
    dsimp only at h
    split at h
    · obtain rfl := Option.some.inj h
      exact absurd hreturned (by simp)
    · exact absurd h (by simp)
  | returned =>
    rw [hphase] at h
    exact absurd h (by simp)

/-! ## When the flag is up -/

/-- The steps that are left to a waiter that sees the flag up when it looks next. -/
def stepsLeft (w : Waiter) : Nat :=
  match w.phase with
  | .checked | .blocked => 3
  | .outside => 2
  | .registered => 1
  | .returned => 0

theorem stepsLeft_le (w : Waiter) : stepsLeft w ≤ 3 := by
  unfold stepsLeft
  split <;> omega

/-- A waiter that was told and has not returned makes a step, and then has one less to make. -/
theorem waiterStep_told {w : Waiter} (h : Told w) (hphase : w.phase ≠ .returned) :
    ∃ w', waiterStep true w = some w' ∧ Told w' ∧ stepsLeft w = stepsLeft w' + 1 := by
  unfold waiterStep
  cases hw : w.phase with
  | outside => exact ⟨_, rfl, by simp [Told], by simp [stepsLeft, hw]⟩
  | registered => exact ⟨_, rfl, by simp [Told], by simp [stepsLeft, hw]⟩
  | checked =>
    have hnotified := h (Or.inl hw)
    refine ⟨{ phase := .outside, notified := false }, by simp [hnotified], by simp [Told], ?_⟩
    simp [stepsLeft, hw]
  | blocked =>
    have hnotified := h (Or.inr hw)
    refine ⟨{ phase := .outside, notified := false }, by simp [hnotified], by simp [Told], ?_⟩
    simp [stepsLeft, hw]
  | returned => exact absurd hw hphase

/-- The flag is up, and every waiter that has seen it down has been told. -/
structure Alarmed (s : Signal) : Prop where
  flag : s.flag = true
  told : ∀ w ∈ s.waiters, Told w

/-- What a step does to a waiter in such a state. -/
theorem Alarmed.step (h : Alarmed s) {actor : Actor} (hstep : s.step actor = some s') :
    Alarmed s' ∧ ∀ i w, s.waiters[i]? = some w → ∃ w', s'.waiters[i]? = some w' ∧
      stepsLeft w = stepsLeft w' + if actor = .waiter i then 1 else 0 := by
  rcases step_cases hstep with ⟨j, w, w', rfl, hw, hmove, rfl⟩ | ⟨j, rfl, -, rfl⟩ |
    ⟨j, rfl, -, rfl⟩
  · rw [h.flag] at hmove
    have hnot : w.phase ≠ .returned := by
      intro hreturned
      simp [waiterStep, hreturned] at hmove
    obtain ⟨w'', hmove', htold, hless⟩ := waiterStep_told (h.told w (List.mem_of_getElem? hw)) hnot
    obtain rfl := Option.some.inj (hmove.symm.trans hmove')
    refine ⟨⟨h.flag, forall_mem_set h.told htold⟩, ?_⟩
    intro i u hu
    by_cases hij : j = i
    · subst hij
      obtain rfl := Option.some.inj (hw.symm.trans hu)
      refine ⟨w', ?_, by simpa using hless⟩
      exact List.getElem?_set_self (List.getElem?_eq_some_iff.1 hw).1
    · refine ⟨u, ?_, by simp [hij]⟩
      rw [List.getElem?_set_ne hij]
      exact hu
  · exact ⟨⟨rfl, h.told⟩, fun i w hw => ⟨w, hw, by simp⟩⟩
  · refine ⟨⟨h.flag, ?_⟩, ?_⟩
    · intro w hw
      obtain ⟨u, -, rfl⟩ := List.mem_map.1 hw
      exact told_notify u
    · intro i w hw
      refine ⟨notify w, ?_, by simp [stepsLeft]⟩
      rw [List.getElem?_map, hw]
      rfl

/-- In such a state every step of a waiter brings it nearer to its return, whatever the others
do. -/
theorem Alarmed.follow (h : Alarmed s) {actors : List Actor} (hfollow : s.follow actors = some s') :
    Alarmed s' ∧ ∀ i w, s.waiters[i]? = some w → ∃ w', s'.waiters[i]? = some w' ∧
      stepsLeft w = stepsLeft w' + actors.count (.waiter i) := by
  induction actors generalizing s with
  | nil =>
    obtain rfl := Option.some.inj hfollow
    exact ⟨h, fun i w hw => ⟨w, hw, by simp⟩⟩
  | cons actor actors ih =>
    obtain ⟨r, hstep, hrest⟩ := follow_cons_eq_some_iff.1 hfollow
    obtain ⟨halarmed, hfirst⟩ := h.step hstep
    obtain ⟨hended, hlater⟩ := ih halarmed hrest
    refine ⟨hended, fun i w hw => ?_⟩
    obtain ⟨u, hu, hone⟩ := hfirst i w hw
    obtain ⟨w', hw', hmore⟩ := hlater i u hu
    refine ⟨w', hw', ?_⟩
    rw [List.count_cons]
    simp only [beq_iff_eq]
    omega

/-- Whatever happens in such a state, a waiter has returned, or it has made less than three steps of
its own and can make the next. -/
theorem Alarmed.returned_or_step (h : Alarmed s) {i : Nat} {w : Waiter}
    (hw : s.waiters[i]? = some w) {actors : List Actor} (hfollow : s.follow actors = some s') :
    ∃ w', s'.waiters[i]? = some w' ∧ (w'.phase = .returned ∨
      actors.count (.waiter i) < 3 ∧ ∃ s'', s'.step (.waiter i) = some s'') := by
  obtain ⟨halarmed, hsteps⟩ := h.follow hfollow
  obtain ⟨w', hw', hcount⟩ := hsteps i w hw
  refine ⟨w', hw', ?_⟩
  by_cases hreturned : w'.phase = .returned
  · exact Or.inl hreturned
  obtain ⟨u, hmove, -, hless⟩ :=
    waiterStep_told (halarmed.told w' (List.mem_of_getElem? hw')) hreturned
  have hthree := stepsLeft_le w
  refine Or.inr ⟨by omega, { s' with waiters := s'.waiters.set i u }, ?_⟩
  simp [Signal.step, hw', halarmed.flag, hmove]

/-! ## States that can be reached -/

/-- What holds in every state that can be reached. -/
structure Sound (s : Signal) : Prop where
  raised : ∀ c ∈ s.cancellers, c ≠ .idle → s.flag = true
  returned : ∀ w ∈ s.waiters, w.phase = .returned → s.flag = true
  alarmed : .finished ∈ s.cancellers → Alarmed s

theorem sound_initial (waiters cancellers : Nat) : Sound (initial waiters cancellers) where
  raised := by
    intro c hc hidle
    exact absurd (List.eq_of_mem_replicate hc) hidle
  returned := by
    intro w hw hreturned
    rw [List.eq_of_mem_replicate hw] at hreturned
    exact absurd hreturned (by simp)
  alarmed := by
    intro hfinished
    exact absurd (List.eq_of_mem_replicate hfinished) (by simp)

theorem Sound.step (h : Sound s) {actor : Actor} (hstep : s.step actor = some s') : Sound s' := by
  have hstays := fun halarmed : Alarmed s => (halarmed.step hstep).1
  rcases step_cases hstep with ⟨i, w, w', rfl, hw, hmove, rfl⟩ | ⟨i, rfl, -, rfl⟩ |
    ⟨i, rfl, hraised, rfl⟩
  · refine ⟨h.raised, ?_, fun hfinished => hstays (h.alarmed hfinished)⟩
    exact forall_mem_set h.returned fun hreturned => flag_of_returned hmove hreturned
  · refine ⟨fun _ _ _ => rfl, fun _ _ _ => rfl, ?_⟩
    -- one canceller more has raised the flag, and those that have finished are the same
    intro hfinished
    rcases List.mem_or_eq_of_mem_set hfinished with hmem | hnew
    · exact hstays (h.alarmed hmem)
    · exact absurd hnew (by simp)
  · have hflag : s.flag = true := h.raised _ (List.mem_of_getElem? hraised) (by simp)
    refine ⟨fun _ _ _ => hflag, fun _ _ _ => hflag, fun _ => ⟨hflag, ?_⟩⟩
    intro w hw
    obtain ⟨u, -, rfl⟩ := List.mem_map.1 hw
    exact told_notify u

/-- Nobody raises the flag but a canceller. -/
theorem exists_of_flag {waiters cancellers : Nat} (h : Reachable waiters cancellers s)
    (hflag : s.flag = true) : ∃ c ∈ s.cancellers, c ≠ .idle := by
  induction h with
  | initial => exact absurd hflag Bool.false_ne_true
  | step _ _ made ih =>
    rcases step_cases made with
      ⟨i, w, w', rfl, -, -, rfl⟩ | ⟨i, rfl, hi, rfl⟩ | ⟨i, rfl, hi, rfl⟩
    · exact ih hflag
    · exact ⟨.raised, List.mem_set (List.getElem?_eq_some_iff.1 hi).1 _, by decide⟩
    · exact ⟨.finished, List.mem_set (List.getElem?_eq_some_iff.1 hi).1 _, by decide⟩

theorem sound_of_reachable {waiters cancellers : Nat} (h : Reachable waiters cancellers s) :
    Sound s := by
  induction h with
  | initial => exact sound_initial waiters cancellers
  | step _ _ made ih => exact ih.step made

/-- Further steps lead from a state that can be reached to another one. -/
theorem Reachable.follow {waiters cancellers : Nat} (h : Reachable waiters cancellers s)
    {actors : List Actor} (hfollow : s.follow actors = some s') :
    Reachable waiters cancellers s' := by
  induction actors generalizing s with
  | nil =>
    obtain rfl := Option.some.inj hfollow
    exact h
  | cons actor actors ih =>
    obtain ⟨r, hstep, hrest⟩ := follow_cons_eq_some_iff.1 hfollow
    exact ih (h.step actor hstep) hrest

/-- Any number of waiters and of cancellers, in any order of their steps.  Whoever has returned has
done so with the flag up.  Once a canceller has finished, nobody who saw the flag down is without a
notification, blocked or about to block.  From then on, whatever the others do, a waiter has
returned, or has made less than three steps of its own and can make the next. -/
theorem no_lost_wakeup {waiters cancellers : Nat} (h : Reachable waiters cancellers s) :
    (∀ w ∈ s.waiters, w.phase = .returned → s.flag = true) ∧
    (∀ i s' w', s.step (.waiter i) = some s' → s'.waiters[i]? = some w' →
      w'.phase = .returned → s.flag = true) ∧
    (.finished ∈ s.cancellers →
      (∀ w ∈ s.waiters, w.phase = .checked ∨ w.phase = .blocked → w.notified = true) ∧
      ∀ i w, s.waiters[i]? = some w → ∀ actors s', s.follow actors = some s' →
        ∃ w', s'.waiters[i]? = some w' ∧ (w'.phase = .returned ∨
          actors.count (.waiter i) < 3 ∧ ∃ s'', s'.step (.waiter i) = some s'')) := by
  have hsound := sound_of_reachable h
  refine ⟨hsound.returned, ?_, ?_⟩
  · intro i s' w' hstep hw' hreturned
    rcases step_cases hstep with
      ⟨j, w, u, hactor, hw, hmove, rfl⟩ | ⟨j, hactor, -⟩ | ⟨j, hactor, -⟩
    · obtain rfl := Actor.waiter.inj hactor
      obtain rfl : w' = u := by
        rw [List.getElem?_set_self (List.getElem?_eq_some_iff.1 hw).1] at hw'
        exact (Option.some.inj hw').symm
      exact flag_of_returned hmove hreturned
    · exact absurd hactor (by simp)
    · exact absurd hactor (by simp)
  · intro hfinished
    have halarmed := hsound.alarmed hfinished
    exact ⟨halarmed.told, fun i w hw actors s' hfollow => halarmed.returned_or_step hw hfollow⟩

/-- A waiter that looks just before the flag is raised, and blocks just before the notification. -/
theorem no_lost_wakeup_blocked :
    let s : Signal :=
      { flag := true, waiters := [{ phase := .blocked, notified := true }],
        cancellers := [.finished] }
    Reachable 1 1 s ∧ .finished ∈ s.cancellers ∧
      ∃ s' w', s.follow [.waiter 0, .waiter 0, .waiter 0] = some s' ∧
        s'.waiters[0]? = some w' ∧ w'.phase = .returned := by
  intro s
  have hfollow : (initial 1 1).follow
      [.waiter 0, .waiter 0, .canceller 0, .waiter 0, .canceller 0] = some s := rfl
  have hreachable : Reachable 1 1 s := Reachable.initial.follow hfollow
  have hfinished : .finished ∈ s.cancellers := List.mem_singleton.2 rfl
  obtain ⟨w', hw', hends⟩ := ((no_lost_wakeup hreachable).2.2 hfinished).2 0
    { phase := .blocked, notified := true } rfl [.waiter 0, .waiter 0, .waiter 0] _ rfl
  refine ⟨hreachable, hfinished, _, w', rfl, hw', ?_⟩
  rcases hends with hreturned | ⟨hfew, -⟩
  · exact hreturned
  · exact absurd hfew (by decide)

end DaemonRpc.Signal
