import DaemonRpc.Proofs.Cancellation.Timeline
import DaemonRpc.Proofs.Time.Duration
import Mathlib.Data.List.Forall2
import Mathlib.Data.Nat.Find
import Mathlib.Logic.Relation

/-!
# Whom a cancellation reaches

The tokens that were cloned from each other, through however many clones, are kin.  A token is
cancelled from the first time on at which one of its kin is.

* `Families` relates the families of the tokens to where these come from: `Families.kin_iff`.
* `History` is what was done with tokens: where each of them comes from, and which cancellations
  were ordered, on which token and for when.  `History.Called` is read off it.
* `History.sound_foldl` says that the tokens are as their history says after any acts, and
  `History.cancellation_spec` is what follows from that.
-/

namespace DaemonRpc.Tokens

variable {ts : Tokens} {ordered : List Cancellation}

/-! ## Where tokens come from -/

/-- The second token is a clone of the first.  A token that is no clone has no origin. -/
def Cloned (origins : List (Option Nat)) (i j : Nat) : Prop := origins[j]? = some (some i)

/-- A chain of clones, in either direction, leads from one token to the other. -/
def Kin (origins : List (Option Nat)) : Nat → Nat → Prop := Relation.EqvGen (Cloned origins)

/-- The tokens have the families that they should have from their origins. -/
structure Families (origins : List (Option Nat)) (ts : Tokens) : Prop where
  count : ts.families.length = origins.length
  older : ∀ {i j}, Cloned origins i j → i < j
  cloned : ∀ {i j}, Cloned origins i j → ts.familyOf i = ts.familyOf j
  kin : ∀ j < origins.length, Kin origins (ts.familyOf j) j

namespace Families

variable {origins : List (Option Nat)} {i j : Nat}

theorem lt_of_cloned (h : Cloned origins i j) : j < origins.length :=
  (List.getElem?_eq_some_iff.1 h).1

theorem familyOf_eq_of_kin (h : Families origins ts) (hkin : Kin origins i j) :
    ts.familyOf i = ts.familyOf j := by
  induction hkin with
  | rel i j hcloned => exact h.cloned hcloned
  | refl i => rfl
  | symm i j _ ih => exact ih.symm
  | trans i j k _ _ ih ih' => exact ih.trans ih'

/-- Tokens are kin exactly if they are in the same family. -/
theorem kin_iff (h : Families origins ts) (hi : i < origins.length) (hj : j < origins.length) :
    Kin origins i j ↔ ts.familyOf i = ts.familyOf j := by
  refine ⟨h.familyOf_eq_of_kin, fun hsame => ?_⟩
  have hfirst := h.kin i hi
  rw [hsame] at hfirst
  exact (hfirst.symm _ _).trans _ _ _ (h.kin j hj)

/-- Kinship stays as tokens are added. -/
theorem kin_append (more : List (Option Nat)) (h : Kin origins i j) :
    Kin (origins ++ more) i j := by
  induction h with
  | rel i j hcloned =>
    refine .rel i j ?_
    rw [Cloned, List.getElem?_append_left (lt_of_cloned hcloned)]
    exact hcloned
  | refl i => exact .refl i
  | symm i j _ ih => exact .symm i j ih
  | trans i j k _ _ ih ih' => exact .trans i j k ih ih'

/-- The last token is a clone of the one that it was cloned from, and no other is new. -/
theorem cloned_concat_iff {origin : Option Nat} :
    Cloned (origins ++ [origin]) i j ↔
      Cloned origins i j ∨ j = origins.length ∧ origin = some i := by
  unfold Cloned
  rcases Nat.lt_trichotomy j origins.length with hlt | rfl | hgt
  · rw [List.getElem?_append_left hlt]
    simp [Nat.ne_of_lt hlt]
  · simp
  · rw [List.getElem?_eq_none (by simpa using Nat.succ_le_of_lt hgt),
      List.getElem?_eq_none (Nat.le_of_lt hgt)]
    simp [Nat.ne_of_gt hgt]

end Families

/-- A token that was there keeps its family as others are added. -/
theorem familyOf_of_append {ts' : Tokens} {more : List Nat} {token : Nat}
    (h : ts'.families = ts.families ++ more) (htoken : token < ts.families.length) :
    ts'.familyOf token = ts.familyOf token := by
  rw [familyOf, familyOf, h, List.getD_eq_getElem?_getD, List.getElem?_append_left htoken,
    List.getD_eq_getElem?_getD]

namespace Families

variable {origins : List (Option Nat)}

theorem start : Families [none] {} where
  count := rfl
  older h := absurd h (by simp [Cloned, List.getElem?_cons])
  cloned h := absurd h (by simp [Cloned, List.getElem?_cons])
  kin j hj := by
    obtain rfl : j = 0 := by simpa using hj
    exact .refl 0

/-- One more token, of a family of its own or of the family of the token that it is cloned from. -/
theorem concat (h : Families origins ts) {origin : Option Nat} {family : Nat}
    (hfamily : origin = none ∧ family = origins.length ∨
      ∃ k < origins.length, origin = some k ∧ family = ts.familyOf k) :
    Families (origins ++ [origin]) { ts with families := ts.families ++ [family] } := by
  have hold : ∀ token < origins.length,
      familyOf { ts with families := ts.families ++ [family] } token = ts.familyOf token :=
    fun token htoken => familyOf_of_append rfl (h.count ▸ htoken)
  have hnew : familyOf { ts with families := ts.families ++ [family] } origins.length = family := by
    simp [familyOf, ← h.count]
  constructor
  · simp [h.count]
  · intro i j hcloned
    rcases cloned_concat_iff.1 hcloned with hcloned | ⟨rfl, horigin⟩
    · exact h.older hcloned
    · rcases hfamily with ⟨hnone, -⟩ | ⟨k, hk, hsome, -⟩
      · exact absurd (hnone.symm.trans horigin) (by simp)
      · obtain rfl := Option.some.inj (hsome.symm.trans horigin)
        exact hk
  · intro i j hcloned
    rcases cloned_concat_iff.1 hcloned with hcloned | ⟨rfl, horigin⟩
    · have hj := lt_of_cloned hcloned
      rw [hold i (Nat.lt_trans (h.older hcloned) hj), hold j hj, h.cloned hcloned]
    · rcases hfamily with ⟨hnone, -⟩ | ⟨k, hk, hsome, hfamily⟩
      · exact absurd (hnone.symm.trans horigin) (by simp)
      · obtain rfl := Option.some.inj (hsome.symm.trans horigin)
        rw [hold k hk, hnew, hfamily]
  · intro j hj
    rcases Nat.lt_succ_iff_lt_or_eq.1 (by simpa using hj) with hj | rfl
    · rw [hold j hj]
      exact kin_append [origin] (h.kin j hj)
    · rw [hnew]
      rcases hfamily with ⟨-, rfl⟩ | ⟨k, hk, rfl, rfl⟩
      · exact .refl _
      · refine (kin_append [some k] (h.kin k hk)).trans _ _ _ (.rel _ _ ?_)
        exact cloned_concat_iff.2 (Or.inr ⟨rfl, rfl⟩)

/-- What has the same families has them rightly too. -/
theorem of_families_eq (h : Families origins ts) {ts' : Tokens}
    (hsame : ts'.families = ts.families) : Families origins ts' := by
  have hfamilyOf : ∀ token, ts'.familyOf token = ts.familyOf token := by
    intro token
    rw [familyOf, familyOf, hsame]
  refine ⟨hsame ▸ h.count, h.older, fun hcloned => ?_, fun j hj => ?_⟩
  · rw [hfamilyOf, hfamilyOf, h.cloned hcloned]
  · rw [hfamilyOf]
    exact h.kin j hj

end Families

/-! ### Acts that take time add no token -/

@[simp] theorem families_wait (ts : Tokens) (family due : Nat) :
    (ts.wait family due).2.families = ts.families := by
  rcases wait_cases ts family due with hafter | hafter | ⟨time, hafter⟩ <;> rw [hafter] <;> rfl

@[simp] theorem families_sleep (ts : Tokens) (token : Nat) (span : Duration)
    (meanwhile : Option Later) : (ts.sleep token span meanwhile).2.families = ts.families := by
  rw [sleep_eq]
  obtain ⟨millis, hmillis⟩ : ∃ millis, Timer.millis span = millis := ⟨_, rfl⟩
  rw [hmillis]
  split
  · simp
  · simp [slumber]

@[simp] theorem families_gather (ts : Tokens) (token : Nat) (patiences : List Duration)
    (meanwhile : Later) : (ts.gather token patiences meanwhile).2.families = ts.families := by
  rcases gather_cases ts token patiences meanwhile with hafter | ⟨time, hafter⟩
  · rw [hafter]
    rfl
  · rw [hafter]
    rfl

/-- Tokens are added at the end. -/
theorem exists_families_perform (ts : Tokens) (a : Act) :
    ∃ more, (ts.perform a).2.families = ts.families ++ more := by
  cases a with
  | create => exact ⟨_, rfl⟩
  | clone token => exact ⟨_, rfl⟩
  | cancel token => exact ⟨[], by simp [perform, cancel]⟩
  | check token => exact ⟨[], by simp [perform]⟩
  | sleep token span meanwhile => exact ⟨[], by simp [perform]⟩
  | gather token patiences meanwhile => exact ⟨[], by simp [perform]⟩

/-! ### What is cancelled stays cancelled -/

theorem cancelled_subset_release (ts : Tokens) (happens : Cancellation → Bool) :
    ts.cancelled ⊆ (ts.release happens).cancelled := by
  simp only [release, List.partition_eq_filter_filter]
  exact List.subset_append_right _ _

theorem cancelled_subset_wait (ts : Tokens) (family due : Nat) :
    ts.cancelled ⊆ (ts.wait family due).2.cancelled := by
  rcases wait_cases ts family due with hafter | hafter | ⟨time, hafter⟩ <;> rw [hafter]
  · exact List.Subset.refl _
  · exact cancelled_subset_release _ _
  · exact cancelled_subset_release _ _

theorem cancelled_subset_sleep (ts : Tokens) (token : Nat) (span : Duration)
    (meanwhile : Option Later) : ts.cancelled ⊆ (ts.sleep token span meanwhile).2.cancelled := by
  rw [sleep_eq]
  obtain ⟨millis, hmillis⟩ : ∃ millis, Timer.millis span = millis := ⟨_, rfl⟩
  rw [hmillis]
  split
  · rw [cancelled_scheduled]
    exact List.Subset.refl _
  · have hwait := cancelled_subset_wait (ts.scheduled meanwhile) (ts.familyOf token)
      (ts.clock + millis)
    rw [cancelled_scheduled] at hwait
    exact hwait

theorem cancelled_subset_gather (ts : Tokens) (token : Nat) (patiences : List Duration)
    (meanwhile : Later) :
    ts.cancelled ⊆ (ts.gather token patiences meanwhile).2.cancelled := by
  have hgathered : ts.cancelled ⊆ (ts.gathered meanwhile).cancelled :=
    List.Subset.trans (cancelled_subset_release _ _) (List.subset_cons_self _ _)
  rcases gather_cases ts token patiences meanwhile with hafter | ⟨time, hafter⟩ <;> rw [hafter]
  · exact hgathered
  · exact List.Subset.trans hgathered (cancelled_subset_release _ _)

/-- No act takes a cancellation back. -/
theorem cancelled_subset_perform (ts : Tokens) (a : Act) :
    ts.cancelled ⊆ (ts.perform a).2.cancelled := by
  cases a with
  | create => exact List.Subset.refl _
  | clone token => exact List.Subset.refl _
  | cancel token => exact List.subset_cons_self _ _
  | check token => exact List.Subset.refl _
  | sleep token span meanwhile => exact cancelled_subset_sleep ts token span meanwhile
  | gather token patiences meanwhile =>
    exact cancelled_subset_gather ts token patiences meanwhile

/-- A token that is there and has been cancelled is so after any act. -/
theorem isCancelled_perform {token : Nat} (htoken : token < ts.families.length)
    (h : ts.isCancelled token = true) (a : Act) : (ts.perform a).2.isCancelled token = true := by
  obtain ⟨more, hmore⟩ := exists_families_perform ts a
  rw [isCancelled, List.contains_iff_mem] at h ⊢
  rw [familyOf_of_append hmore htoken]
  exact cancelled_subset_perform ts a h

/-! ## What was done with tokens -/

/-- An order to cancel: on which token, and for when. -/
structure Order where
  token : Nat
  time : Nat
deriving DecidableEq

/-- The cancellation that an order is. -/
def cancellation (ts : Tokens) (o : Order) : Cancellation where
  family := ts.familyOf o.token
  time := o.time

namespace Act

/-- Where the token comes from that is added. -/
def origins : Act → List (Option Nat)
  | create => [none]
  | clone token => [some token]
  | cancel _ | check _ | sleep _ _ _ | gather _ _ _ => []

/-- The orders to cancel, at the given time. -/
def orders (clock : Nat) : Act → List Order
  | create | clone _ | check _ => []
  | cancel token => [{ token, time := clock }]
  | sleep _ _ meanwhile =>
    (meanwhile.map fun l => { token := l.token, time := clock + Timer.millis l.after }).toList
  | gather _ _ meanwhile =>
    [{ token := meanwhile.token, time := clock + Timer.millis meanwhile.after }]

/-- The tokens that it is done with. -/
def tokens : Act → List Nat
  | create => []
  | clone token | cancel token | check token => [token]
  | sleep token _ meanwhile => token :: (meanwhile.map Later.token).toList
  | gather token _ meanwhile => [token, meanwhile.token]

theorem token_mem_of_mem_orders {a : Act} {clock : Nat} {o : Order} (ho : o ∈ a.orders clock) :
    o.token ∈ a.tokens := by
  cases a with
  | create => exact absurd ho List.not_mem_nil
  | clone token => exact absurd ho List.not_mem_nil
  | cancel token =>
    obtain rfl := List.mem_singleton.1 ho
    exact List.mem_singleton.2 rfl
  | check token => exact absurd ho List.not_mem_nil
  | sleep token span meanwhile =>
    cases meanwhile with
    | none => exact absurd ho List.not_mem_nil
    | some l =>
      obtain rfl := List.mem_singleton.1 ho
      exact List.mem_cons_of_mem _ (List.mem_singleton.2 rfl)
  | gather token patiences meanwhile =>
    obtain rfl := List.mem_singleton.1 ho
    exact List.mem_cons_of_mem _ (List.mem_singleton.2 rfl)

end Act

theorem Recorded.perform (h : Recorded ordered ts) (a : Act) :
    Recorded (ordered ++ (a.orders ts.clock).map ts.cancellation) (ts.perform a).2 := by
  cases a with
  | create =>
    rw [Act.orders, List.map_nil, List.append_nil]
    exact ⟨h.happened, h.kept, h.coming⟩
  | clone token =>
    rw [Act.orders, List.map_nil, List.append_nil]
    exact ⟨h.happened, h.kept, h.coming⟩
  | cancel token => exact h.cancel token
  | check token =>
    rw [Act.orders, List.map_nil, List.append_nil]
    exact h
  | sleep token span meanwhile =>
    refine (h.sleep_spec token span meanwhile ?_).1
    cases meanwhile with
    | none => rfl
    | some l => rfl
  | gather token patiences meanwhile => exact h.gather token patiences meanwhile

theorem Families.perform {origins : List (Option Nat)} (h : Families origins ts) {a : Act}
    (htokens : ∀ token ∈ a.tokens, token < origins.length) :
    Families (origins ++ a.origins) (ts.perform a).2 := by
  cases a with
  | create => exact h.concat (Or.inl ⟨rfl, h.count⟩)
  | clone token => exact h.concat (Or.inr ⟨token, htokens token (by simp [Act.tokens]), rfl, rfl⟩)
  | cancel token =>
    rw [Act.origins, List.append_nil]
    exact h.of_families_eq rfl
  | check token =>
    rw [Act.origins, List.append_nil]
    exact h
  | sleep token span meanwhile =>
    rw [Act.origins, List.append_nil]
    exact h.of_families_eq (families_sleep ts token span meanwhile)
  | gather token patiences meanwhile =>
    rw [Act.origins, List.append_nil]
    exact h.of_families_eq (families_gather ts token patiences meanwhile)

/-- What was done with tokens: where each of them comes from, which orders to cancel there were,
and the tokens now. -/
structure History where
  origins : List (Option Nat) := [none]
  orders : List Order := []
  tokens : Tokens := {}

namespace History

/-- Does something more with the tokens. -/
def perform (h : History) (a : Act) : History where
  origins := h.origins ++ a.origins
  orders := h.orders ++ a.orders h.tokens.clock
  tokens := (h.tokens.perform a).2

/-- What was done after some acts, from a single token on. -/
def after (acts : List Act) : History := acts.foldl perform {}

/-- An act with tokens that are there. -/
def Knows (h : History) (a : Act) : Prop := ∀ token ∈ a.tokens, token < h.origins.length

/-- Acts that are done only with tokens that are there by then. -/
def Sensible : History → List Act → Prop
  | _, [] => True
  | h, a :: acts => h.Knows a ∧ Sensible (h.perform a) acts

/-- The family of a token was ordered to be cancelled at a time: one of its kin was. -/
def Called (h : History) (token time : Nat) : Prop :=
  ∃ o ∈ h.orders, o.time = time ∧ Kin h.origins o.token token

/-- The tokens are as their history says. -/
structure Sound (h : History) : Prop where
  families : Families h.origins h.tokens
  known : ∀ o ∈ h.orders, o.token < h.origins.length
  recorded : Recorded (h.orders.map h.tokens.cancellation) h.tokens

namespace Sound

variable {h : History} {a : Act}

theorem start : Sound {} where
  families := .start
  known := by simp
  recorded := ⟨by simp, by simp, by simp⟩

/-- Whoever was there keeps its family, so that an order stays the same cancellation. -/
theorem cancellation_perform (hsound : h.Sound) (hknows : h.Knows a) {o : Order}
    (ho : o ∈ h.orders ++ a.orders h.tokens.clock) :
    o.token < h.origins.length ∧
      (h.perform a).tokens.cancellation o = h.tokens.cancellation o := by
  have htoken : o.token < h.origins.length := by
    rcases List.mem_append.1 ho with ho | ho
    · exact hsound.known o ho
    · exact hknows _ (Act.token_mem_of_mem_orders ho)
  obtain ⟨more, hmore⟩ := exists_families_perform h.tokens a
  have hfamily : (h.perform a).tokens.familyOf o.token = h.tokens.familyOf o.token :=
    familyOf_of_append hmore (hsound.families.count ▸ htoken)
  rw [cancellation, cancellation, hfamily]
  exact ⟨htoken, rfl⟩

/-- One more act leaves the tokens as their history says. -/
theorem perform (hsound : h.Sound) (hknows : h.Knows a) : (h.perform a).Sound where
  families := hsound.families.perform hknows
  known := by
    intro o ho
    exact List.length_append ▸ Nat.lt_add_right _ (hsound.cancellation_perform hknows ho).1
  recorded := by
    show Recorded ((h.orders ++ a.orders h.tokens.clock).map _) _
    rw [List.map_congr_left fun o ho => (hsound.cancellation_perform hknows ho).2, List.map_append]
    exact hsound.recorded.perform a

/-- The orders that reach a token are those that its family was to be cancelled with. -/
theorem called_iff (hsound : h.Sound) {token time : Nat} (htoken : token < h.origins.length) :
    h.Called token time ↔
      (⟨h.tokens.familyOf token, time⟩ : Cancellation) ∈ h.orders.map h.tokens.cancellation := by
  rw [List.mem_map, Called]
  refine exists_congr fun o => and_congr_right fun ho => ?_
  rw [hsound.families.kin_iff (hsound.known o ho) htoken, cancellation, Cancellation.mk.injEq,
    and_comm]

/-- The same with the orders of one more act. -/
theorem called_perform_iff (hsound : h.Sound) (hknows : h.Knows a) {token time : Nat}
    (htoken : token < h.origins.length) :
    (h.perform a).Called token time ↔ (⟨h.tokens.familyOf token, time⟩ : Cancellation) ∈
      h.orders.map h.tokens.cancellation ++
        (a.orders h.tokens.clock).map h.tokens.cancellation := by
  obtain ⟨more, hmore⟩ := exists_families_perform h.tokens a
  have hfamily : (h.perform a).tokens.familyOf token = h.tokens.familyOf token :=
    familyOf_of_append hmore (hsound.families.count ▸ htoken)
  have hthere : token < (h.perform a).origins.length :=
    List.length_append ▸ Nat.lt_add_right _ htoken
  have hsame := List.map_congr_left fun o ho => (hsound.cancellation_perform hknows ho).2
  rw [(hsound.perform hknows).called_iff hthere, hfamily, ← List.map_append, ← hsame]
  rfl

end Sound

/-- After any acts the tokens are as their history says. -/
theorem sound_foldl {h : History} (hsound : h.Sound) {acts : List Act} (hacts : h.Sensible acts) :
    (acts.foldl perform h).Sound := by
  induction acts generalizing h with
  | nil => exact hsound
  | cons a acts ih => exact ih (hsound.perform hacts.1) hacts.2

/-! ## Whom a cancellation reaches, and when -/

section Reached

variable {h : History} {token : Nat}

/-- A token is cancelled exactly if one of its kin was ordered to be, by now.  A cancellation at
the very time that has come may be still to happen. -/
theorem Sound.isCancelled_iff (hsound : h.Sound) (htoken : token < h.origins.length)
    (hsettled : ∀ c ∈ h.tokens.pending, c.time ≠ h.tokens.clock) :
    h.tokens.isCancelled token = true ↔ ∃ time ≤ h.tokens.clock, h.Called token time := by
  rw [isCancelled, List.contains_iff_mem]
  constructor
  · intro hcancelled
    obtain ⟨⟨family, time⟩, hc, rfl, htime⟩ := hsound.recorded.happened _ hcancelled
    exact ⟨time, htime, (hsound.called_iff htoken).2 hc⟩
  · rintro ⟨time, htime, hcalled⟩
    refine (hsound.recorded.kept _ ((hsound.called_iff htoken).1 hcalled)).resolve_right ?_
    intro hpending
    have hcoming := (hsound.recorded.coming _ hpending).2
    exact hsettled _ hpending (Nat.le_antisymm htime hcoming)

/-- A token that has been cancelled is so for ever. -/
theorem isCancelled_foldl (htoken : token < h.tokens.families.length)
    (hcancelled : h.tokens.isCancelled token = true) (more : List Act) :
    (more.foldl perform h).tokens.isCancelled token = true := by
  induction more generalizing h with
  | nil => exact hcancelled
  | cons a more ih =>
    obtain ⟨added, hadded⟩ := exists_families_perform h.tokens a
    refine ih (h := h.perform a) ?_ (isCancelled_perform htoken hcancelled a)
    rw [perform, hadded, List.length_append]
    exact Nat.lt_add_right _ htoken

/-- A cancellation now reaches the kin of its token, and nobody else. -/
theorem Sound.isCancelled_cancel_iff (hsound : h.Sound) (htoken : token < h.origins.length)
    {other : Nat} (hother : other < h.origins.length) :
    (h.perform (.cancel other)).tokens.isCancelled token = true ↔
      h.tokens.isCancelled token = true ∨ Kin h.origins other token := by
  rw [hsound.families.kin_iff hother htoken]
  simp only [isCancelled, List.contains_iff_mem]
  show h.tokens.familyOf token ∈ h.tokens.familyOf other :: h.tokens.cancelled ↔ _
  rw [List.mem_cons, or_comm, eq_comm]

/-- How a sleep of a token ends, with the orders to cancel that there were before it and the one
that comes with it. -/
structure SleepEnds (h : History) (token : Nat) (span : Duration) (meanwhile : Option Later) :
    Prop where
  refused : h.tokens.isCancelled token = true →
    (h.tokens.perform (.sleep token span meanwhile)).1 = .interrupted 0 ∧
      (h.perform (.sleep token span meanwhile)).tokens.clock = h.tokens.clock
  interrupted : h.tokens.isCancelled token = false → ∀ t,
    IsLeast {t | (h.perform (.sleep token span meanwhile)).Called token t} t →
    t < h.tokens.clock + Timer.millis span →
    (h.tokens.perform (.sleep token span meanwhile)).1 = .interrupted (t - h.tokens.clock) ∧
      (h.perform (.sleep token span meanwhile)).tokens.clock = t
  slept : h.tokens.isCancelled token = false →
    (∀ t, (h.perform (.sleep token span meanwhile)).Called token t →
      h.tokens.clock + Timer.millis span ≤ t) →
    (h.tokens.perform (.sleep token span meanwhile)).1 = .slept (Timer.millis span) ∧
      (h.perform (.sleep token span meanwhile)).tokens.clock = h.tokens.clock + Timer.millis span

theorem Sound.sleepEnds (hsound : h.Sound) {span : Duration} {meanwhile : Option Later}
    (hknows : h.Knows (.sleep token span meanwhile)) : SleepEnds h token span meanwhile := by
  have htoken : token < h.origins.length := hknows token List.mem_cons_self
  have hordered : (Act.orders h.tokens.clock (.sleep token span meanwhile)).map
      h.tokens.cancellation = (meanwhile.map (Later.cancellation h.tokens)).toList := by
    cases meanwhile with
    | none => rfl
    | some l => rfl
  have hcalled : ∀ t, (h.perform (.sleep token span meanwhile)).Called token t ↔
      (⟨h.tokens.familyOf token, t⟩ : Cancellation) ∈ h.orders.map h.tokens.cancellation ++
        (meanwhile.map (Later.cancellation h.tokens)).toList := by
    intro t
    rw [hsound.called_perform_iff hknows htoken, hordered]
  obtain ⟨-, hrefused, hwaits⟩ := hsound.recorded.sleep_spec token span meanwhile rfl
  simp only [← hcalled] at hwaits
  exact ⟨hrefused, fun hflag => (hwaits hflag).1, fun hflag => (hwaits hflag).2⟩

/-- A sleep is a success exactly if its token is not cancelled before the end of it. -/
theorem SleepEnds.success_iff {span : Duration} {meanwhile : Option Later}
    (hends : SleepEnds h token span meanwhile) :
    (∃ n, (h.tokens.perform (.sleep token span meanwhile)).1 = .slept n) ↔
      h.tokens.isCancelled token = false ∧
        ∀ t, (h.perform (.sleep token span meanwhile)).Called token t →
          h.tokens.clock + Timer.millis span ≤ t := by
  constructor
  · rintro ⟨n, hslept⟩
    cases hflag : h.tokens.isCancelled token with
    | true =>
      rw [(hends.refused hflag).1] at hslept
      exact absurd hslept (by simp)
    | false =>
      refine ⟨rfl, fun t ht => Nat.le_of_not_lt fun hbefore => ?_⟩
      -- the first of the cancellations would have ended it
      classical
      have hleast : IsLeast {t | (h.perform (.sleep token span meanwhile)).Called token t}
          (Nat.find ⟨t, ht⟩) := ⟨Nat.find_spec ⟨t, ht⟩, fun t' ht' => Nat.find_min' _ ht'⟩
      rw [(hends.interrupted hflag _ hleast (Nat.lt_of_le_of_lt (hleast.2 ht) hbefore)).1] at hslept
      exact absurd hslept (by simp)
  · rintro ⟨hflag, hlate⟩
    exact ⟨_, (hends.slept hflag hlate).1⟩

/-- How a wait for a token ends that begins with the first history, with the orders to cancel of the
second: after which time the waiter is woken, if it is before its patience ends. -/
structure WaitEnds (h h' : History) (token : Nat) (patience : Duration) (woken : Option Nat) :
    Prop where
  inTime : (∃ n, woken = some n) ↔
    ∃ t ≤ h.tokens.clock + Timer.millis patience, h'.Called token t
  atOnce : h.tokens.isCancelled token = true → woken = some 0
  first : h.tokens.isCancelled token = false → ∀ n, woken = some n →
    IsLeast {t | h'.Called token t} (h.tokens.clock + n)

/-- Each of those who wait for a token is woken if it is cancelled before the patience of that
waiter ends, and otherwise is not. -/
theorem Sound.waitEnds (hsound : h.Sound) {patiences : List Duration} {meanwhile : Later}
    (hknows : h.Knows (.gather token patiences meanwhile)) :
    ∃ woken, (h.tokens.perform (.gather token patiences meanwhile)).1 = .woken woken ∧
      List.Forall₂ (WaitEnds h (h.perform (.gather token patiences meanwhile)) token)
        patiences woken := by
  have htoken : token < h.origins.length := hknows token List.mem_cons_self
  refine ⟨patiences.map (h.tokens.wokenAfter token meanwhile), rfl, ?_⟩
  rw [List.forall₂_map_right_iff, List.forall₂_same]
  intro patience _
  obtain ⟨htime, hrefused, hfirst⟩ := hsound.recorded.wokenAfter_spec token meanwhile patience rfl
  constructor
  · simp only [hsound.called_perform_iff hknows htoken]
    exact htime
  · exact hrefused
  · simp only [hsound.called_perform_iff hknows htoken]
    exact hfirst

/-- After any acts, what can be seen of a token.

It is cancelled exactly if one of its kin was ordered to be by now, unless that is to happen at this
very time, and then it is cancelled whatever else is done.  A cancellation now reaches its kin and
nobody else.  A sleep lasts as long as the timer waits for its span, which is exact up to thirty
years, and it is a success exactly if the token is not cancelled before its end.  Otherwise it is
refused at once, or ends at the first cancellation.  Waiters are woken by the first cancellation of
kin, all of them whose patience lasts until then, and by nothing else. -/
theorem cancellation_spec (acts : List Act) (hacts : Sensible {} acts) {token : Nat}
    (htoken : token < (after acts).origins.length) :
    let h := after acts
    ((∀ c ∈ h.tokens.pending, c.time ≠ h.tokens.clock) →
      (h.tokens.isCancelled token = true ↔ ∃ time ≤ h.tokens.clock, h.Called token time)) ∧
    (h.tokens.isCancelled token = true →
      ∀ more, (after (acts ++ more)).tokens.isCancelled token = true) ∧
    (∀ other < h.origins.length,
      ((h.perform (.cancel other)).tokens.isCancelled token = true ↔
        h.tokens.isCancelled token = true ∨ Kin h.origins other token)) ∧
    h.tokens.perform (.check token) =
      (if h.tokens.isCancelled token then .refused else .done, h.tokens) ∧
    (∀ span meanwhile, h.Knows (.sleep token span meanwhile) →
      SleepEnds h token span meanwhile ∧
      ((∃ n, (h.tokens.perform (.sleep token span meanwhile)).1 = .slept n) ↔
        h.tokens.isCancelled token = false ∧
          ∀ t, (h.perform (.sleep token span meanwhile)).Called token t →
            h.tokens.clock + Timer.millis span ≤ t) ∧
      ∀ n, span.toNanos = n * Duration.nanosPerMilli →
        Timer.millis span = min n Timer.longest) ∧
    ∀ patiences meanwhile, h.Knows (.gather token patiences meanwhile) →
      ∃ woken, (h.tokens.perform (.gather token patiences meanwhile)).1 = .woken woken ∧
        List.Forall₂ (WaitEnds h (h.perform (.gather token patiences meanwhile)) token)
          patiences woken := by
  intro h
  have hsound : h.Sound := sound_foldl .start hacts
  refine ⟨hsound.isCancelled_iff htoken, ?_, fun other => hsound.isCancelled_cancel_iff htoken, rfl,
    ?_, fun patiences meanwhile => hsound.waitEnds⟩
  · intro hcancelled more
    rw [after, List.foldl_append]
    exact isCancelled_foldl (hsound.families.count ▸ htoken) hcancelled more
  · intro span meanwhile hknows
    have hends := hsound.sleepEnds hknows
    exact ⟨hends, hends.success_iff, fun n => Timer.millis_eq_min⟩

end Reached

/-- A token is cancelled by the cancellation of the token that it was cloned from, while a third
sleeps. -/
theorem cancellation_spec_clone :
    let acts : List Act :=
      [.clone 0, .create, .sleep 2 (.ofMillis 20) (some { token := 0, after := .ofMillis 5 })]
    Sensible {} acts ∧ 1 < (after acts).origins.length ∧ (after acts).Called 1 5 ∧
      (∀ c ∈ (after acts).tokens.pending, c.time ≠ (after acts).tokens.clock) ∧
      ∀ more, (after (acts ++ more)).tokens.isCancelled 1 = true := by
  intro acts
  have hacts : Sensible {} acts := by
    refine ⟨?_, ?_, ?_, trivial⟩ <;> unfold Knows <;> decide
  have hcalled : (after acts).Called 1 5 :=
    ⟨⟨0, 5⟩, by decide, rfl, .rel 0 1 rfl⟩
  have htoken : 1 < (after acts).origins.length := by
    decide
  obtain ⟨hflag, hstays, -⟩ := cancellation_spec acts hacts htoken
  refine ⟨hacts, htoken, hcalled, by decide, hstays ?_⟩
  exact (hflag (by decide)).2 ⟨5, by decide, hcalled⟩

/-- A sleep of thirty years and a second, which is a second too short. -/
theorem slept_thirty_years :
    (({} : Tokens).perform (.sleep 0 (.ofSecs 946080001) none)).1 = .slept 946080000000 ∧
      (({} : Tokens).perform (.sleep 0 (.ofSecs 946080001) none)).1 ≠ .slept 946080001000 := by
  decide

end History

end DaemonRpc.Tokens
