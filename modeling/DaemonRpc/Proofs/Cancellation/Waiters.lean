import DaemonRpc.Proofs.Cancellation.Families
import DaemonRpc.Proofs.Cancellation.Wakeup
import Mathlib.Data.List.Induction

/-!
# Waiters on the clock and waiters in steps

On the clock of `Tokens` a cancellation is one act, and it wakes all who wait.  In a `Signal` it is
the raising of a flag and a notification, and the steps of the waiters fall in between.  Both come
to the same: the token of a waiter is a signal with one canceller for each order to cancel its
family.

* `Signal.CalledUntil` are the states of a signal when a time has come: the cancellers that were
  ordered for it or before have finished.  `Signal.exists_calledUntil` shows that there are some.
* `Signal.Answers` and `Signal.Silent` are what becomes of its waiters then.
* `Tokens.History.waits_as_signal` shows that a waiter which is woken on the clock answers in steps,
  and that the others stay silent.
-/

namespace DaemonRpc

namespace Signal

variable {s s' : Signal} {waiters : Nat} {calls : List Nat} {time : Nat}

/-! ## A signal at a time -/

/-- Where a canceller is at a time that is to cancel at another. -/
def phaseAt (time call : Nat) : CancellerPhase := if call ≤ time then .finished else .idle

/-- Each canceller has finished whose time has come, and no other has begun. -/
def CalledUntil (s : Signal) (calls : List Nat) (time : Nat) : Prop :=
  s.cancellers = calls.map (phaseAt time)

/-- A canceller that has not begun can make both of its steps. -/
theorem Reachable.exists_finished {cancellers : Nat} (h : Reachable waiters cancellers s) {i : Nat}
    (hidle : s.cancellers[i]? = some .idle) :
    ∃ s', Reachable waiters cancellers s' ∧ s'.cancellers = s.cancellers.set i .finished := by
  obtain ⟨hlength, -⟩ := List.getElem?_eq_some_iff.1 hidle
  let raised : Signal := { s with flag := true, cancellers := s.cancellers.set i .raised }
  have hraised : s.step (.canceller i) = some raised := by simp [Signal.step, hidle, raised]
  have hnotified : raised.step (.canceller i) =
      some { raised with waiters := raised.waiters.map notify,
                         cancellers := raised.cancellers.set i .finished } := by
    simp [Signal.step, raised, List.getElem?_set_self hlength]
  exact ⟨_, (h.step _ hraised).step _ hnotified, List.set_set _⟩

/-- Every time comes: the cancellers that are called until then finish, one after the other. -/
theorem exists_calledUntil (waiters : Nat) (calls : List Nat) (time : Nat) :
    ∃ s, Reachable waiters calls.length s ∧ s.CalledUntil calls time := by
  -- the first of them are where they should be, and the others have not begun
  have hfirst : ∀ before after, calls = before ++ after → ∃ s, Reachable waiters calls.length s ∧
      s.cancellers = before.map (phaseAt time) ++ List.replicate after.length .idle := by
    intro before
    induction before using List.reverseRecOn with
    | nil =>
      rintro after rfl
      exact ⟨initial waiters _, .initial, rfl⟩
    | append_singleton before call ih =>
      intro after hcalls
      obtain ⟨s, hs, hcancellers⟩ := ih (call :: after) (by simpa using hcalls)
      rw [List.length_cons, List.replicate_succ] at hcancellers
      by_cases hcall : call ≤ time
      · obtain ⟨s', hs', hfinished⟩ := hs.exists_finished (i := before.length)
          (by simp [hcancellers])
        exact ⟨s', hs', by simp [hfinished, hcancellers, phaseAt, hcall]⟩
      · exact ⟨s, hs, by simp [hcancellers, phaseAt, hcall]⟩
  obtain ⟨s, hs, hcancellers⟩ := hfirst calls [] (List.append_nil calls).symm
  exact ⟨s, hs, hcancellers.trans (List.append_nil _)⟩

/-! ## What becomes of the waiters -/

/-- Whatever happens next, each waiter has returned, or has made less than three steps of its own
and can make the next. -/
def Answers (s : Signal) : Prop :=
  ∀ i < s.waiters.length, ∀ actors s', s.follow actors = some s' →
    ∃ w', s'.waiters[i]? = some w' ∧ (w'.phase = .returned ∨
      actors.count (.waiter i) < 3 ∧ ∃ s'', s'.step (.waiter i) = some s'')

/-- No waiter has returned. -/
def Silent (s : Signal) : Prop := ∀ w ∈ s.waiters, w.phase ≠ .returned

/-- The waiters answer once one of the cancellers was called. -/
theorem CalledUntil.answers (h : s.CalledUntil calls time)
    (hreachable : Reachable waiters calls.length s) (hcall : ∃ call ∈ calls, call ≤ time) :
    s.Answers := by
  obtain ⟨call, hmem, hle⟩ := hcall
  have hfinished : .finished ∈ s.cancellers := by
    rw [h]
    exact List.mem_map.2 ⟨call, hmem, if_pos hle⟩
  have halarmed := (sound_of_reachable hreachable).alarmed hfinished
  exact fun i hi actors s' hfollow =>
    halarmed.returned_or_step (List.getElem?_eq_getElem hi) hfollow

/-- The waiters are silent until one of the cancellers is called. -/
theorem CalledUntil.silent (h : s.CalledUntil calls time)
    (hreachable : Reachable waiters calls.length s) (hcall : ¬ ∃ call ∈ calls, call ≤ time) :
    s.Silent := by
  intro w hw hreturned
  have hflag := (sound_of_reachable hreachable).returned w hw hreturned
  obtain ⟨c, hc, hbegun⟩ := exists_of_flag hreachable hflag
  rw [h] at hc
  obtain ⟨call, hmem, rfl⟩ := List.mem_map.1 hc
  exact hbegun (if_neg fun hle => hcall ⟨call, hmem, hle⟩)

end Signal

/-! ## The waiters of a token -/

namespace Tokens.History

variable {h h' : History} {token : Nat}

/-- The times for which the family of a token was ordered to be cancelled, one for each order. -/
def calls (h : History) (token : Nat) : List Nat :=
  (h.orders.filter fun o => h.tokens.familyOf o.token = h.tokens.familyOf token).map Order.time

theorem Sound.mem_calls_iff (hsound : h.Sound) (htoken : token < h.origins.length) {time : Nat} :
    time ∈ h.calls token ↔ h.Called token time := by
  rw [hsound.called_iff htoken]
  simp [calls, cancellation, and_comm, and_left_comm]

/-- A waiter that is woken before its patience ends answers as a waiter of a signal, and one that is
not stays silent until then. -/
theorem WaitEnds.signal {patience : Duration} {woken : Option Nat} {waiters : Nat} {s : Signal}
    (hends : WaitEnds h h' token patience woken)
    (hcalls : ∀ t, t ∈ h'.calls token ↔ h'.Called token t)
    (hreachable : Signal.Reachable waiters (h'.calls token).length s)
    (htime : s.CalledUntil (h'.calls token) (h.tokens.clock + Timer.millis patience)) :
    ((∃ n, woken = some n) → s.Answers) ∧ (woken = none → s.Silent) := by
  have hinTime : (∃ n, woken = some n) ↔
      ∃ t ∈ h'.calls token, t ≤ h.tokens.clock + Timer.millis patience := by
    rw [hends.inTime]
    exact exists_congr fun t => by rw [hcalls, and_comm]
  refine ⟨fun hwoken => htime.answers hreachable (hinTime.1 hwoken), ?_⟩
  rintro rfl
  exact htime.silent hreachable (hinTime.not.1 (by simp))

/-- After any acts, those who wait for a token are woken on the clock as they are in steps.  For
every signal with a canceller for each order to cancel the family, at the time when the patience of
a waiter ends: if that waiter is woken, all of them answer, and otherwise all of them are silent. -/
theorem waits_as_signal (acts : List Act) (hacts : Sensible {} acts) {token : Nat}
    {patiences : List Duration} {meanwhile : Later}
    (hknows : (after acts).Knows (.gather token patiences meanwhile)) :
    let h := after acts
    let h' := h.perform (.gather token patiences meanwhile)
    ∃ woken, (h.tokens.perform (.gather token patiences meanwhile)).1 = .woken woken ∧
      List.Forall₂ (fun patience w => ∀ waiters s,
        Signal.Reachable waiters (h'.calls token).length s →
        s.CalledUntil (h'.calls token) (h.tokens.clock + Timer.millis patience) →
        ((∃ n, w = some n) → s.Answers) ∧ (w = none → s.Silent)) patiences woken := by
  intro h h'
  have hsound : h.Sound := sound_foldl .start hacts
  have htoken : token < h'.origins.length :=
    List.length_append ▸ Nat.lt_add_right _ (hknows token List.mem_cons_self)
  have hcalls : ∀ t, t ∈ h'.calls token ↔ h'.Called token t :=
    fun t => (hsound.perform hknows).mem_calls_iff htoken
  obtain ⟨woken, hwoken, hends⟩ := hsound.waitEnds hknows
  exact ⟨woken, hwoken, hends.imp fun patience w hend waiters s => hend.signal hcalls⟩

end Tokens.History

end DaemonRpc
