import DaemonRpc.Cancellation.Tokens
import Mathlib.Order.Bounds.Basic

/-!
# When a cancellation happens

A cancellation is ordered for a time, and happens while somebody waits.  `Recorded` relates the
tokens to the cancellations that were ordered so far: what is cancelled was to be by now, and what
has not happened yet is to come.

* `wait_cases` and `gather_cases` are what can become of the tokens while time passes.
* `Recorded.wait_spec` says for how long somebody waits.
* `Recorded.sleep_spec` is what it says of a sleep, and `Recorded.wokenAfter_spec` of one who waits
  for a token.
-/

namespace DaemonRpc.Tokens

variable {ts : Tokens} {ordered : List Cancellation} {family due : Nat}

/-! ## What takes time -/

/-- A wait leaves the tokens as they are, or goes on to its end or through a cancellation. -/
theorem wait_cases (ts : Tokens) (family due : Nat) :
    (ts.wait family due).2 = ts ∨ (ts.wait family due).2 = ts.upTo due ∨
      ∃ time, (ts.wait family due).2 = ts.through time := by
  unfold wait
  split
  · exact Or.inl rfl
  · split
    · exact Or.inr (Or.inl rfl)
    · split
      · exact Or.inr (Or.inr ⟨_, rfl⟩)
      · exact Or.inr (Or.inl rfl)

/-- The tokens when the cancellation has come for which waiters wait. -/
def gathered (ts : Tokens) (meanwhile : Later) : Tokens :=
  (ts.upTo (ts.clock + Timer.millis meanwhile.after)).cancel meanwhile.token

/-- Waiters are done with that cancellation, or wait on for another. -/
theorem gather_cases (ts : Tokens) (token : Nat) (patiences : List Duration) (meanwhile : Later) :
    (ts.gather token patiences meanwhile).2 = ts.gathered meanwhile ∨
      ∃ time, (ts.gather token patiences meanwhile).2 = (ts.gathered meanwhile).through time := by
  unfold gather
  dsimp only
  split
  · exact Or.inl rfl
  · exact Or.inr ⟨_, rfl⟩

/-! ## Cancellations that were ordered -/

/-- The tokens after some cancellations were ordered: a family that is cancelled was to be by now,
and what has not happened yet is to come. -/
structure Recorded (ordered : List Cancellation) (ts : Tokens) : Prop where
  happened : ∀ f ∈ ts.cancelled, ∃ c ∈ ordered, c.family = f ∧ c.time ≤ ts.clock
  kept : ∀ c ∈ ordered, c.family ∈ ts.cancelled ∨ c ∈ ts.pending
  coming : ∀ c ∈ ts.pending, c ∈ ordered ∧ ts.clock ≤ c.time

namespace Recorded

/-- A cancellation now. -/
theorem cancel (h : Recorded ordered ts) (token : Nat) :
    Recorded (ordered ++ [⟨ts.familyOf token, ts.clock⟩]) (ts.cancel token) where
  happened := by
    intro f hf
    rcases List.mem_cons.1 hf with rfl | hf
    · exact ⟨⟨ts.familyOf token, ts.clock⟩, by simp, rfl, Nat.le_refl _⟩
    · obtain ⟨c, hc, hfamily, htime⟩ := h.happened f hf
      exact ⟨c, List.mem_append_left _ hc, hfamily, htime⟩
  kept := by
    intro c hc
    rcases List.mem_append.1 hc with hc | hc
    · exact (h.kept c hc).imp_left (List.mem_cons_of_mem _)
    · obtain rfl := List.mem_singleton.1 hc
      exact Or.inl List.mem_cons_self
  coming c hc := ⟨List.mem_append_left _ (h.coming c hc).1, (h.coming c hc).2⟩

/-- A cancellation that is to come. -/
theorem cancelIn (h : Recorded ordered ts) (token : Nat) (span : Duration) :
    Recorded (ordered ++ [⟨ts.familyOf token, ts.clock + Timer.millis span⟩])
      (ts.cancelIn token span) where
  happened := by
    intro f hf
    obtain ⟨c, hc, hrest⟩ := h.happened f hf
    exact ⟨c, List.mem_append_left _ hc, hrest⟩
  kept := by
    intro c hc
    rcases List.mem_append.1 hc with hc | hc
    · exact (h.kept c hc).imp_right (List.mem_append_left _)
    · exact Or.inr (List.mem_append_right _ hc)
  coming := by
    intro c hc
    rcases List.mem_append.1 hc with hc | hc
    · exact ⟨List.mem_append_left _ (h.coming c hc).1, (h.coming c hc).2⟩
    · obtain rfl := List.mem_singleton.1 hc
      exact ⟨List.mem_append_right _ List.mem_cons_self, Nat.le_add_right _ _⟩

/-- The clock goes on, and what happens by then is what is due by then. -/
theorem release (h : Recorded ordered ts) {now : Nat} (hnow : ts.clock ≤ now)
    {happens : Cancellation → Bool} (hdue : ∀ c, happens c = true → c.time ≤ now)
    (hlate : ∀ c ∈ ts.pending, happens c = false → now ≤ c.time) :
    Recorded ordered ({ ts with clock := now }.release happens) := by
  simp only [Tokens.release, List.partition_eq_filter_filter]
  constructor
  · intro f hf
    rcases List.mem_append.1 hf with hf | hf
    · obtain ⟨c, hc, rfl⟩ := List.mem_map.1 hf
      obtain ⟨hpending, hhappens⟩ := List.mem_filter.1 hc
      exact ⟨c, (h.coming c hpending).1, rfl, hdue c hhappens⟩
    · obtain ⟨c, hc, hfamily, htime⟩ := h.happened f hf
      exact ⟨c, hc, hfamily, Nat.le_trans htime hnow⟩
  · intro c hc
    rcases h.kept c hc with hcancelled | hpending
    · exact Or.inl (List.mem_append_right _ hcancelled)
    · cases hhappens : happens c with
      | true =>
        have hfamily := List.mem_map_of_mem (f := Cancellation.family)
          (List.mem_filter.2 ⟨hpending, hhappens⟩)
        exact Or.inl (List.mem_append_left _ hfamily)
      | false => exact Or.inr (List.mem_filter.2 ⟨hpending, by simp [hhappens]⟩)
  · intro c hc
    obtain ⟨hpending, hhappens⟩ := List.mem_filter.1 hc
    exact ⟨(h.coming c hpending).1, hlate c hpending (by simpa using hhappens)⟩

theorem upTo (h : Recorded ordered ts) (time : Nat) : Recorded ordered (ts.upTo time) := by
  apply h.release (Nat.le_max_left _ _)
  · intro c hc
    have hbefore : c.time < time := by simpa using hc
    omega
  · intro c hc hhappens
    have hstart := (h.coming c hc).2
    have hafter : ¬ c.time < time := by simpa using hhappens
    omega

theorem through (h : Recorded ordered ts) (time : Nat) : Recorded ordered (ts.through time) := by
  apply h.release (Nat.le_max_left _ _)
  · intro c hc
    simpa using hc
  · intro c _ hhappens
    have hafter : ¬ c.time ≤ max ts.clock time := by simpa using hhappens
    omega

theorem wait (h : Recorded ordered ts) (family due : Nat) :
    Recorded ordered (ts.wait family due).2 := by
  rcases wait_cases ts family due with hafter | hafter | ⟨time, hafter⟩ <;> rw [hafter]
  · exact h
  · exact h.upTo due
  · exact h.through time

/-! ### The next cancellation of a family -/

/-- For a family that is not cancelled, all of its cancellations are to come. -/
theorem mem_pending_iff (h : Recorded ordered ts) (hfamily : family ∉ ts.cancelled) {time : Nat} :
    (⟨family, time⟩ : Cancellation) ∈ ts.pending ↔ ⟨family, time⟩ ∈ ordered :=
  ⟨fun hc => (h.coming _ hc).1, fun hc => (h.kept _ hc).resolve_left hfamily⟩

theorem mem_times_iff {time : Nat} :
    time ∈ (ts.pending.filter (·.family = family)).map Cancellation.time ↔
      (⟨family, time⟩ : Cancellation) ∈ ts.pending := by
  constructor
  · intro htime
    obtain ⟨c, hc, rfl⟩ := List.mem_map.1 htime
    obtain ⟨hpending, hfamily⟩ := List.mem_filter.1 hc
    obtain rfl : c.family = family := by simpa using hfamily
    exact hpending
  · intro hc
    exact List.mem_map.2 ⟨_, List.mem_filter.2 ⟨hc, by simp⟩, rfl⟩

theorem nextCancel_eq_some_iff (h : Recorded ordered ts) (hfamily : family ∉ ts.cancelled)
    {time : Nat} :
    ts.nextCancel family = some time ↔
      IsLeast {t | (⟨family, t⟩ : Cancellation) ∈ ordered} time := by
  simp only [nextCancel, List.min?_eq_some_iff, mem_times_iff, h.mem_pending_iff hfamily]
  rfl

theorem nextCancel_eq_none_iff (h : Recorded ordered ts) (hfamily : family ∉ ts.cancelled) :
    ts.nextCancel family = none ↔ ∀ t, (⟨family, t⟩ : Cancellation) ∉ ordered := by
  simp only [nextCancel, List.min?_eq_none_iff, List.eq_nil_iff_forall_not_mem, mem_times_iff,
    h.mem_pending_iff hfamily]

/-- A wait of a family that is not cancelled goes on to its end, or to the first cancellation if
that comes before it. -/
theorem wait_spec (h : Recorded ordered ts) (hfamily : family ∉ ts.cancelled)
    (hdue : ts.clock ≤ due) :
    (∀ t, IsLeast {t | (⟨family, t⟩ : Cancellation) ∈ ordered} t → t < due →
      (ts.wait family due).1 = false ∧ (ts.wait family due).2.clock = t) ∧
    ((∀ t, (⟨family, t⟩ : Cancellation) ∈ ordered → due ≤ t) →
      (ts.wait family due).1 = true ∧ (ts.wait family due).2.clock = due) := by
  constructor
  · intro t hleast hbefore
    have hstart := (h.coming _ ((h.mem_pending_iff hfamily).2 hleast.1)).2
    have hwait : ¬ due ≤ ts.clock := by
      have hstart : ts.clock ≤ t := hstart
      omega
    rw [Tokens.wait, if_neg hwait, (h.nextCancel_eq_some_iff hfamily).2 hleast]
    simp only [if_pos hbefore]
    exact ⟨trivial, Nat.max_eq_right hstart⟩
  · intro hlate
    unfold Tokens.wait
    split
    · rename_i hover
      exact ⟨rfl, Nat.le_antisymm hdue hover⟩
    · split
      · exact ⟨rfl, Nat.max_eq_right hdue⟩
      · rename_i t hnext
        have hleast := (h.nextCancel_eq_some_iff hfamily).1 hnext
        rw [if_neg (Nat.not_lt_of_le (hlate t hleast.1))]
        exact ⟨rfl, Nat.max_eq_right hdue⟩

end Recorded

/-! ## Sleeping -/

/-- The tokens after a cancellation was ordered for later, if one was. -/
def scheduled (ts : Tokens) : Option Later → Tokens
  | some l => ts.cancelIn l.token l.after
  | none => ts

/-- The cancellation that is ordered for later. -/
def Later.cancellation (ts : Tokens) (l : Later) : Cancellation where
  family := ts.familyOf l.token
  time := ts.clock + Timer.millis l.after

theorem Recorded.scheduled (h : Recorded ordered ts) (meanwhile : Option Later) :
    Recorded (ordered ++ (meanwhile.map (Later.cancellation ts)).toList)
      (ts.scheduled meanwhile) := by
  cases meanwhile with
  | none => simpa [Tokens.scheduled] using h
  | some l => exact h.cancelIn l.token l.after

/-- Waits, and says for how long since the start. -/
def slumber (ts : Tokens) (family start due : Nat) : Outcome × Tokens :=
  let (ended, after) := ts.wait family due
  (if ended then .slept (after.clock - start) else .interrupted (after.clock - start), after)

section Scheduled

variable (ts : Tokens) (meanwhile : Option Later)

@[simp] theorem clock_scheduled : (ts.scheduled meanwhile).clock = ts.clock := by
  cases meanwhile <;> rfl

@[simp] theorem families_scheduled : (ts.scheduled meanwhile).families = ts.families := by
  cases meanwhile <;> rfl

@[simp] theorem cancelled_scheduled : (ts.scheduled meanwhile).cancelled = ts.cancelled := by
  cases meanwhile <;> rfl

@[simp] theorem familyOf_scheduled (token : Nat) :
    (ts.scheduled meanwhile).familyOf token = ts.familyOf token := by
  simp [familyOf]

@[simp] theorem isCancelled_scheduled (token : Nat) :
    (ts.scheduled meanwhile).isCancelled token = ts.isCancelled token := by
  simp [isCancelled]

/-- A sleep orders what is to happen meanwhile, looks at the token, and waits. -/
theorem sleep_eq (token : Nat) (span : Duration) :
    ts.sleep token span meanwhile =
      if ts.isCancelled token then (.interrupted 0, ts.scheduled meanwhile)
      else (ts.scheduled meanwhile).slumber (ts.familyOf token) ts.clock
        (ts.clock + Timer.millis span) := by
  rw [← isCancelled_scheduled ts meanwhile, ← familyOf_scheduled ts meanwhile]
  -- a check that counted up to the timer's longest wait would not come to an end
  obtain ⟨millis, hmillis⟩ : ∃ millis, Timer.millis span = millis := ⟨_, rfl⟩
  delta sleep
  rw [hmillis]
  cases meanwhile with
  | none => rfl
  | some l => rfl

end Scheduled

/-- A sleep of a family that is not cancelled goes on to its end, or to the first cancellation if
that comes before it. -/
theorem Recorded.slumber_spec (h : Recorded ordered ts) (hfamily : family ∉ ts.cancelled)
    (hdue : ts.clock ≤ due) :
    Recorded ordered (ts.slumber family ts.clock due).2 ∧
    (∀ t, IsLeast {t | (⟨family, t⟩ : Cancellation) ∈ ordered} t → t < due →
      (ts.slumber family ts.clock due).1 = .interrupted (t - ts.clock) ∧
        (ts.slumber family ts.clock due).2.clock = t) ∧
    ((∀ t, (⟨family, t⟩ : Cancellation) ∈ ordered → due ≤ t) →
      (ts.slumber family ts.clock due).1 = .slept (due - ts.clock) ∧
        (ts.slumber family ts.clock due).2.clock = due) := by
  have hafter := h.wait family due
  obtain ⟨hcut, hend⟩ := h.wait_spec hfamily hdue
  rw [slumber]
  refine ⟨hafter, ?_, ?_⟩
  · intro t hleast hbefore
    obtain ⟨hended, htime⟩ := hcut t hleast hbefore
    simp [hended, htime]
  · intro hlate
    obtain ⟨hended, htime⟩ := hend hlate
    simp [hended, htime]

/-- A sleep of a token that is cancelled ends at once.  Any other ends at its end, or at the first
cancellation of the token if that comes before it. -/
theorem Recorded.sleep_spec (h : Recorded ordered ts) (token : Nat) (span : Duration)
    (meanwhile : Option Later) {ordered' : List Cancellation}
    (hordered : ordered' = ordered ++ (meanwhile.map (Later.cancellation ts)).toList) :
    Recorded ordered' (ts.sleep token span meanwhile).2 ∧
    (ts.isCancelled token = true → (ts.sleep token span meanwhile).1 = .interrupted 0 ∧
      (ts.sleep token span meanwhile).2.clock = ts.clock) ∧
    (ts.isCancelled token = false →
      (∀ t, IsLeast {t | (⟨ts.familyOf token, t⟩ : Cancellation) ∈ ordered'} t →
        t < ts.clock + Timer.millis span →
        (ts.sleep token span meanwhile).1 = .interrupted (t - ts.clock) ∧
          (ts.sleep token span meanwhile).2.clock = t) ∧
      ((∀ t, (⟨ts.familyOf token, t⟩ : Cancellation) ∈ ordered' →
          ts.clock + Timer.millis span ≤ t) →
        (ts.sleep token span meanwhile).1 = .slept (Timer.millis span) ∧
          (ts.sleep token span meanwhile).2.clock = ts.clock + Timer.millis span)) := by
  have hscheduled : Recorded ordered' (ts.scheduled meanwhile) := hordered ▸ h.scheduled meanwhile
  rw [sleep_eq]
  obtain ⟨millis, hmillis⟩ : ∃ millis, Timer.millis span = millis := ⟨_, rfl⟩
  rw [hmillis]
  cases hflag : ts.isCancelled token with
  | true =>
    rw [if_pos rfl]
    exact ⟨hscheduled, fun _ => ⟨rfl, clock_scheduled ts meanwhile⟩, fun h => absurd h (by simp)⟩
  | false =>
    rw [if_neg Bool.false_ne_true]
    have hfamily : ts.familyOf token ∉ (ts.scheduled meanwhile).cancelled := by
      rw [cancelled_scheduled]
      simpa [isCancelled] using hflag
    have hdue : (ts.scheduled meanwhile).clock ≤ ts.clock + millis := by
      rw [clock_scheduled]
      exact Nat.le_add_right _ _
    obtain ⟨hafter, hcut, hend⟩ := hscheduled.slumber_spec hfamily hdue
    rw [clock_scheduled] at hafter hcut hend
    rw [Nat.add_sub_cancel_left] at hend
    exact ⟨hafter, fun h => absurd h (by simp), fun _ => ⟨hcut, hend⟩⟩

/-! ## Waiters -/

/-- There is a first cancellation of a family by some time exactly if there is any by then. -/
theorem Recorded.exists_isLeast_le_iff (h : Recorded ordered ts) (hfamily : family ∉ ts.cancelled)
    {limit : Nat} :
    (∃ first, IsLeast {t | (⟨family, t⟩ : Cancellation) ∈ ordered} first ∧ first ≤ limit) ↔
      ∃ t ≤ limit, (⟨family, t⟩ : Cancellation) ∈ ordered := by
  constructor
  · rintro ⟨first, hleast, hle⟩
    exact ⟨first, hle, hleast.1⟩
  · rintro ⟨t, hle, hc⟩
    cases hnext : ts.nextCancel family with
    | none => exact absurd hc ((h.nextCancel_eq_none_iff hfamily).1 hnext t)
    | some first =>
      have hleast := (h.nextCancel_eq_some_iff hfamily).1 hnext
      exact ⟨first, hleast, Nat.le_trans (hleast.2 hc) hle⟩

/-- Those who wait for a token that is not cancelled are woken by the first cancellation of its
family, be it the one that comes meanwhile or another. -/
theorem Recorded.wakeTime?_eq_some_iff (h : Recorded ordered ts) {token : Nat}
    (hflag : ts.isCancelled token = false) (meanwhile : Later) {time : Nat} :
    ts.wakeTime? token meanwhile = some time ↔
      IsLeast {t | (⟨ts.familyOf token, t⟩ : Cancellation) ∈
        ordered ++ [meanwhile.cancellation ts]} time := by
  have hfamily : ts.familyOf token ∉ ts.cancelled := by simpa [isCancelled] using hflag
  rw [wakeTime?, hflag, if_neg Bool.false_ne_true]
  exact (h.cancelIn meanwhile.token meanwhile.after).nextCancel_eq_some_iff hfamily

theorem wokenAfter_eq_some_iff {token : Nat} {meanwhile : Later} {patience : Duration} {n : Nat} :
    ts.wokenAfter token meanwhile patience = some n ↔ ∃ time,
      ts.wakeTime? token meanwhile = some time ∧ time ≤ ts.clock + Timer.millis patience ∧
        time - ts.clock = n := by
  simp [wokenAfter, Option.map_eq_some_iff, Option.filter_eq_some_iff, and_assoc]

/-- A waiter is woken exactly if the family of its token is cancelled before its patience ends: at
once, if it is cancelled already, or with the first cancellation. -/
theorem Recorded.wokenAfter_spec (h : Recorded ordered ts) (token : Nat) (meanwhile : Later)
    (patience : Duration) {ordered' : List Cancellation}
    (hordered : ordered' = ordered ++ [meanwhile.cancellation ts]) :
    ((∃ n, ts.wokenAfter token meanwhile patience = some n) ↔
      ∃ t ≤ ts.clock + Timer.millis patience,
        (⟨ts.familyOf token, t⟩ : Cancellation) ∈ ordered') ∧
    (ts.isCancelled token = true → ts.wokenAfter token meanwhile patience = some 0) ∧
    (ts.isCancelled token = false → ∀ n, ts.wokenAfter token meanwhile patience = some n →
      IsLeast {t | (⟨ts.familyOf token, t⟩ : Cancellation) ∈ ordered'} (ts.clock + n)) := by
  subst hordered
  obtain ⟨limit, hlimit⟩ : ∃ limit, Timer.millis patience = limit := ⟨_, rfl⟩
  simp only [wokenAfter_eq_some_iff, hlimit]
  cases hflag : ts.isCancelled token with
  | true =>
    have hcancelled : ts.familyOf token ∈ ts.cancelled := by simpa [isCancelled] using hflag
    obtain ⟨⟨family, t⟩, hc, rfl, htime⟩ := h.happened _ hcancelled
    have hwake : ts.wakeTime? token meanwhile = some ts.clock := by
      rw [wakeTime?, hflag, if_pos rfl]
    have hnow : ts.clock ≤ ts.clock + limit := Nat.le_add_right _ _
    refine ⟨iff_of_true ⟨0, ts.clock, hwake, hnow, Nat.sub_self _⟩ ?_, fun _ => ?_, nofun⟩
    · exact ⟨t, Nat.le_trans htime hnow, List.mem_append_left _ hc⟩
    · exact ⟨ts.clock, hwake, hnow, Nat.sub_self _⟩
  | false =>
    have hscheduled := h.cancelIn meanwhile.token meanwhile.after
    have hfamily : ts.familyOf token ∉ ts.cancelled := by simpa [isCancelled] using hflag
    simp only [h.wakeTime?_eq_some_iff hflag]
    refine ⟨?_, nofun, ?_⟩
    · refine Iff.trans ?_ (hscheduled.exists_isLeast_le_iff hfamily)
      constructor
      · rintro ⟨_, first, hleast, hle, -⟩
        exact ⟨first, hleast, hle⟩
      · rintro ⟨first, hleast, hle⟩
        exact ⟨_, first, hleast, hle, rfl⟩
    · rintro - n ⟨first, hleast, -, rfl⟩
      -- what has not happened yet is not past
      have hnow : ts.clock ≤ first :=
        (hscheduled.coming _ ((hscheduled.mem_pending_iff hfamily).2 hleast.1)).2
      rwa [Nat.add_sub_cancel' hnow]

/-- The waiters' tokens are as was ordered, with the cancellation that came meanwhile. -/
theorem Recorded.gather (h : Recorded ordered ts) (token : Nat) (patiences : List Duration)
    (meanwhile : Later) :
    Recorded (ordered ++ [meanwhile.cancellation ts]) (ts.gather token patiences meanwhile).2 := by
  have hgathered : Recorded (ordered ++ [meanwhile.cancellation ts]) (ts.gathered meanwhile) := by
    have hclock : (ts.upTo (ts.clock + Timer.millis meanwhile.after)).clock =
        ts.clock + Timer.millis meanwhile.after := Nat.max_eq_right (Nat.le_add_right _ _)
    have hcancel := (h.upTo (ts.clock + Timer.millis meanwhile.after)).cancel meanwhile.token
    rw [hclock] at hcancel
    exact hcancel
  rcases gather_cases ts token patiences meanwhile with hafter | ⟨time, hafter⟩ <;> rw [hafter]
  · exact hgathered
  · exact hgathered.through time

end DaemonRpc.Tokens
