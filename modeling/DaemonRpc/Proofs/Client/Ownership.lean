import DaemonRpc.Client.Errand
import DaemonRpc.Proofs.Client.Establishment
import DaemonRpc.Proofs.Update
import Mathlib

/-!
# Who owns a process

A process that is handed over goes from the establishment to the client, and from the client to
the first stop that is acknowledged.  `Session.Custody` says where it is and what was done with
it so far, while any number of calls are under way on the client.

* `Session.Move` is what one step of a call does to the process, and `step_move` shows that
  there is nothing else.
* `Custody.act` and `Custody.live` carry the custody from step to step and through a life.
* `Session.close` is the end of a client, and `Custody.close_spec` what was done until then.
* `ownership` puts the lives together, from the establishment on.
-/

namespace DaemonRpc

/-- A stop that the daemon has acknowledged, whether or not its process is reaped yet. -/
def Task.isStopped : Task → Bool
  | ⟨.stop, .reaping _ _⟩ => true
  | ⟨.stop, .done (.ok _)⟩ => true
  | _ => false

@[simp] theorem Task.isStopped_ready (c : Call) : Task.isStopped ⟨c, .ready⟩ = false := by
  cases c <;> rfl

@[simp] theorem Task.isStopped_awaiting (c : Call) (id : String) (due : Nat)
    (answer : Except TransportError Bytes) :
    Task.isStopped ⟨c, .awaiting id due answer⟩ = false := by
  cases c <;> rfl

@[simp] theorem Task.isStopped_error (c : Call) (err : Error) :
    Task.isStopped ⟨c, .done (.error err)⟩ = false := by
  cases c <;> rfl

/-- Only a stop is acknowledged. -/
theorem Task.call_of_isStopped {t : Task} (h : t.isStopped = true) : t.call = .stop := by
  unfold isStopped at h
  split at h
  · rfl
  · rfl
  · exact absurd h (by simp)

namespace Session

/-! ## One step -/

/-- What is done with a process that is reaped. -/
def reapingCalls (p : ProcessHandle) : List Event :=
  .process (.waitForExit shutdownGrace) ::
    match p.exits with
    | .ok false => [.process .terminate, .released]
    | .ok true | .error _ => [.released]

/-- Reaping a process leaves the client alone, and ends with letting the process go. -/
theorem reap_spec (p : ProcessHandle) (s : Session) :
    (reap p s).client = s.client ∧
      (reap p s).wire.handling = s.wire.handling ++ reapingCalls p := by
  cases hexits : p.exits with
  | error reason =>
    simp [reap, reapingCalls, hexits, log, onWire, Wire.handling_note, Event.isHandling]
  | ok exited =>
    cases exited with
    | true => simp [reap, reapingCalls, hexits, onWire, Wire.handling_note, Event.isHandling]
    | false =>
      cases hterminates : p.terminates with
      | ok _ =>
        simp [reap, reapingCalls, hexits, hterminates, log, onWire, Wire.handling_note,
          Event.isHandling]
      | error reason =>
        simp [reap, reapingCalls, hexits, hterminates, log, onWire, Wire.handling_note,
          Event.isHandling]

/-- What one step of a call does to the process of a client. -/
inductive Move (t : Task) (s : Session) : Task → Session → Prop where
  /-- Nothing; a stop is acknowledged only if there is no process. -/
  | leaves {t' : Task} {s' : Session} (reaping : t.isReaping = false)
      (reaping' : t'.isReaping = false) (client : s'.client = s.client)
      (handling : s'.wire.handling = s.wire.handling)
      (stopped : t'.isStopped = true → t.isStopped = true ∨ s.client.process = none)
      (stays : t.isStopped = true → t'.isStopped = true) : Move t s t' s'
  /-- An acknowledged stop takes it. -/
  | takes {p : ProcessHandle} {message : String} {s' : Session} (owned : s.client.process = some p)
      (reaping : t.isReaping = false) (client : s'.client = { s.client with process := none })
      (handling : s'.wire.handling = s.wire.handling) :
      Move t s ⟨.stop, .reaping p message⟩ s'
  /-- The stop that took it reaps it. -/
  | reaps {p : ProcessHandle} {c : Call} {result : c.Result} (task : t = ⟨c, .reaping p result⟩) :
      Move t s ⟨c, .done (.ok result)⟩ (reap p s)

/-- Sending a call does nothing to the process. -/
theorem dispatch_move (env : Surroundings) (c : Call) (s : Session) :
    Move ⟨c, .ready⟩ s ⟨c, (dispatch env c s).1⟩ (dispatch env c s).2 := by
  rw [dispatch]
  split
  · exact .leaves rfl rfl rfl rfl (by simp) (by simp)
  · rename_i method params _
    exact .leaves rfl rfl rfl (Wire.handling_send env s.wire method params) (by simp) (by simp)

/-- A successful call does nothing to the process, but for a stop that takes it. -/
theorem settle_move {c : Call} (result : c.Result) {id : String} {due : Nat}
    {answer : Except TransportError Bytes} {s r : Session} (hclient : r.client = s.client)
    (hhandling : r.wire.handling = s.wire.handling) :
    Move ⟨c, .awaiting id due answer⟩ s ⟨c, (settle c result r).1⟩ (settle c result r).2 := by
  by_cases hstop : c = .stop
  · subst hstop
    cases hprocess : s.client.process with
    | none =>
      simp only [settle, log, onWire, hclient, hprocess]
      exact .leaves rfl rfl rfl ((Wire.handling_log _ _).trans hhandling)
        (fun _ => Or.inr hprocess) (by simp)
    | some p =>
      simp only [settle, log, onWire, hclient, hprocess]
      exact .takes hprocess rfl rfl ((Wire.handling_log _ _).trans hhandling)
  · have hsettle : settle c result r = (.done (.ok result), r) := by
      cases c <;> first | rfl | exact absurd rfl hstop
    rw [hsettle]
    refine .leaves rfl rfl hclient hhandling ?_ (by simp)
    intro hstopped
    exact absurd (Task.call_of_isStopped hstopped) hstop

/-- A step of a call does nothing else. -/
theorem step_move (env : Surroundings) (t : Task) (s : Session) :
    Move t s (step env t s).1 (step env t s).2 := by
  obtain ⟨c, progress⟩ := t
  cases progress with
  | ready => exact dispatch_move env c s
  | awaiting id due answer =>
    have hhandling : (((s.wire.advance due).take answer)).handling = s.wire.handling := by
      rw [Wire.handling_take]
      rfl
    simp only [step, deliver, onWire]
    split
    · exact .leaves rfl rfl rfl hhandling (by simp) (by simp)
    · rename_i result _
      exact settle_move result rfl hhandling
  | reaping p result => exact .reaps rfl
  | done outcome => exact .leaves rfl rfl rfl rfl Or.inl id

/-- A step that ends a call with an error does nothing to the process. -/
theorem Move.of_error {t t' : Task} {s s' : Session} (h : Move t s t' s') {err : Error}
    (herror : t'.outcome? = some (.error err)) :
    s'.client = s.client ∧ s'.wire.handling = s.wire.handling := by
  cases h with
  | leaves _ _ client handling _ _ => exact ⟨client, handling⟩
  | takes _ _ _ _ => exact absurd herror (by simp [Task.outcome?])
  | reaps _ => exact absurd herror (by simp [Task.outcome?])

/-- A stop whose answer is a message is acknowledged, whoever owns the process. -/
theorem isStopped_settle (message : String) (s : Session) :
    Task.isStopped ⟨.stop, (settle .stop message s).1⟩ = true := by
  simp only [settle, log, onWire]
  cases s.client.process with
  | none => rfl
  | some p => rfl

/-- A stop is acknowledged exactly when its answer is a message. -/
theorem isStopped_step_iff (env : Surroundings) (s : Session) (id : String) (due : Nat)
    (answer : Except TransportError Bytes) :
    (step env ⟨.stop, .awaiting id due answer⟩ s).1.isStopped = true ↔
      ∃ message, Call.stop.conclude id answer = .ok message := by
  simp only [step, deliver]
  cases Call.stop.conclude id answer with
  | error err => simp
  | ok message => exact ⟨fun _ => ⟨message, rfl⟩, fun _ => isStopped_settle message _⟩

/-! ## A life of steps -/

/-- What a caller does with a client: begins a call, or lets the call of the given number take
a step. -/
inductive Act where
  | begin (c : Call)
  | go (i : Nat)

/-- What comes of it. -/
def act (env : Surroundings) : List Task × Session → Act → List Task × Session
  | (ts, s), .begin c => (ts ++ [{ call := c }], s)
  | (ts, s), .go i => stepAt env i ts s

/-- What comes of a number of acts, from a client that has no calls. -/
def live (env : Surroundings) (acts : List Act) (s : Session) : List Task × Session :=
  acts.foldl (act env) ([], s)

/-- Where a process is that was handed over, and what was done with it since. -/
inductive Custody (handed : Option ProcessHandle) (before : List Event) (ts : List Task)
    (s : Session) : Prop where
  /-- There is none. -/
  | nothing (none_handed : handed = none) (client : s.client.process = none)
      (idle : ∀ t ∈ ts, t.isReaping = false) (handling : s.wire.handling = before)
  /-- The client owns it. -/
  | owned {p : ProcessHandle} (some_handed : handed = some p) (client : s.client.process = some p)
      (fresh : ∀ t ∈ ts, t.isStopped = false) (idle : ∀ t ∈ ts, t.isReaping = false)
      (handling : s.wire.handling = before)
  /-- One of the stops has it. -/
  | taken {p : ProcessHandle} {i : Nat} {message : String} (some_handed : handed = some p)
      (client : s.client.process = none) (task : ts[i]? = some ⟨.stop, .reaping p message⟩)
      (idle : ∀ j ≠ i, ∀ t, ts[j]? = some t → t.isReaping = false)
      (handling : s.wire.handling = before)
  /-- It was reaped and let go. -/
  | gone {p : ProcessHandle} {i : Nat} {t : Task} (some_handed : handed = some p)
      (client : s.client.process = none) (task : ts[i]? = some t) (stopped : t.isStopped = true)
      (idle : ∀ t ∈ ts, t.isReaping = false)
      (handling : s.wire.handling = before ++ reapingCalls p)

variable {env : Surroundings} {handed : Option ProcessHandle} {before : List Event}
  {ts : List Task} {s : Session}

/-- A call that is begun does not matter to the process. -/
theorem Custody.begin (h : Custody handed before ts s) (c : Call) :
    Custody handed before (ts ++ [{ call := c }]) s := by
  have hlast : ∀ {P : Task → Prop}, (∀ t ∈ ts, P t) → P { call := c } →
      ∀ t ∈ ts ++ [{ call := c }], P t := by
    intro P hall hnew t ht
    rcases List.mem_append.1 ht with hmem | hmem
    · exact hall t hmem
    · obtain rfl := List.mem_singleton.1 hmem
      exact hnew
  have hfound : ∀ {i : Nat} {t : Task}, ts[i]? = some t →
      (ts ++ [{ call := c }])[i]? = some t := by
    intro i t ht
    rw [List.getElem?_append_left (List.getElem?_eq_some_iff.1 ht).1]
    exact ht
  cases h with
  | nothing none_handed client idle handling =>
    exact .nothing none_handed client (hlast idle rfl) handling
  | owned some_handed client fresh idle handling =>
    exact .owned some_handed client (hlast fresh (Task.isStopped_ready c)) (hlast idle rfl) handling
  | @taken p i message some_handed client task idle handling =>
    refine .taken some_handed client (hfound task) ?_ handling
    intro j hj t ht
    rcases Nat.lt_or_ge j ts.length with hlt | hge
    · rw [List.getElem?_append_left hlt] at ht
      exact idle j hj t ht
    · rw [List.getElem?_append_right hge] at ht
      obtain rfl : ({ call := c } : Task) = t := by
        simpa using List.mem_of_getElem? ht |> List.mem_singleton.1 |> Eq.symm
      rfl
  | gone some_handed client task stopped idle handling =>
    exact .gone some_handed client (hfound task) stopped (hlast idle rfl) handling

/-- A call that is being reaped is the one that moves by reaping. -/
theorem Move.not_reaps {t t' : Task} {s' : Session} (h : Move t s t' s')
    (hidle : t.isReaping = false) (hclient : s.client.process = none) :
    t'.isReaping = false ∧ s'.client = s.client ∧ s'.wire.handling = s.wire.handling ∧
      (t.isStopped = true → t'.isStopped = true) := by
  cases h with
  | leaves _ reaping' client handling _ stays => exact ⟨reaping', client, handling, stays⟩
  | takes owned =>
    rw [hclient] at owned
    exact absurd owned (by simp)
  | reaps task =>
    subst task
    exact absurd hidle (by simp [Task.isReaping])

/-- A process that the client owns stays there or is taken. -/
theorem custody_of_owned {p : ProcessHandle} (some_handed : handed = some p)
    (client : s.client.process = some p) (fresh : ∀ t ∈ ts, t.isStopped = false)
    (idle : ∀ t ∈ ts, t.isReaping = false) (handling : s.wire.handling = before) {i : Nat}
    {t t' : Task} {s' : Session} (ht : ts[i]? = some t) (hmove : Move t s t' s') :
    Custody handed before (ts.set i t') s' := by
  have hmem : t ∈ ts := List.mem_of_getElem? ht
  have hset := List.getElem?_set_self (a := t') (List.getElem?_eq_some_iff.1 ht).1
  cases hmove with
  | leaves _ reaping' client' handling' stopped _ =>
    have hfresh : t'.isStopped = false := by
      rw [Bool.eq_false_iff]
      intro hstopped
      rcases stopped hstopped with hbefore | hnone
      · rw [fresh t hmem] at hbefore
        exact absurd hbefore (by simp)
      · rw [client] at hnone
        exact absurd hnone (by simp)
    exact .owned some_handed (client' ▸ client) (forall_mem_set fresh hfresh)
      (forall_mem_set idle reaping') (handling'.trans handling)
  | takes owned reaping client' handling' =>
    rw [client] at owned
    obtain rfl := Option.some.inj owned
    refine .taken some_handed (by rw [client']) hset ?_ (handling'.trans handling)
    intro j hj u hu
    rcases getElem?_set_cases hu with ⟨rfl, -⟩ | ⟨-, hold⟩
    · exact absurd rfl hj
    · exact idle u (List.mem_of_getElem? hold)
  | reaps task =>
    subst task
    exact absurd (idle _ hmem) (by simp [Task.isReaping])

/-- A process that a stop has taken stays with it until that stop reaps it. -/
theorem custody_of_taken {p : ProcessHandle} {k : Nat} {message : String}
    (some_handed : handed = some p) (client : s.client.process = none)
    (task : ts[k]? = some ⟨.stop, .reaping p message⟩)
    (idle : ∀ j ≠ k, ∀ t, ts[j]? = some t → t.isReaping = false)
    (handling : s.wire.handling = before) {i : Nat} {t t' : Task} {s' : Session}
    (ht : ts[i]? = some t) (hmove : Move t s t' s') : Custody handed before (ts.set i t') s' := by
  have hset := List.getElem?_set_self (a := t') (List.getElem?_eq_some_iff.1 ht).1
  by_cases hk : i = k
  · -- the stop that has it takes the step, which can only be to reap it
    subst hk
    rw [ht] at task
    obtain rfl := Option.some.inj task
    cases hmove with
    | leaves reaping => exact absurd reaping (by simp [Task.isReaping])
    | takes owned reaping => exact absurd reaping (by simp [Task.isReaping])
    | reaps task =>
      cases task
      obtain ⟨hclient, hhandling⟩ := reap_spec p s
      refine .gone some_handed (by rw [hclient, client]) hset rfl ?_ (by rw [hhandling, handling])
      intro u hu
      obtain ⟨j, hj⟩ := List.mem_iff_getElem?.1 hu
      rcases getElem?_set_cases hj with ⟨-, rfl⟩ | ⟨hji, hold⟩
      · rfl
      · exact idle j hji u hold
  · obtain ⟨hreaping, hclient, hhandling, -⟩ := hmove.not_reaps (idle i hk t ht) client
    have htask : (ts.set i t')[k]? = some ⟨.stop, .reaping p message⟩ := by
      rw [List.getElem?_set_ne hk]
      exact task
    refine .taken some_handed (hclient ▸ client) htask ?_ (hhandling.trans handling)
    intro j hj u hu
    rcases getElem?_set_cases hu with ⟨-, rfl⟩ | ⟨-, hold⟩
    · exact hreaping
    · exact idle j hj u hold

/-- The custody goes on when one of the calls takes a step. -/
theorem Custody.move (h : Custody handed before ts s) {i : Nat} {t t' : Task} {s' : Session}
    (ht : ts[i]? = some t) (hmove : Move t s t' s') :
    Custody handed before (ts.set i t') s' := by
  have hmem : t ∈ ts := List.mem_of_getElem? ht
  cases h with
  | nothing none_handed client idle handling =>
    obtain ⟨hreaping, hclient, hhandling, -⟩ := hmove.not_reaps (idle t hmem) client
    exact .nothing none_handed (hclient ▸ client) (forall_mem_set idle hreaping)
      (hhandling.trans handling)
  | owned some_handed client fresh idle handling =>
    exact custody_of_owned some_handed client fresh idle handling ht hmove
  | taken some_handed client task idle handling =>
    exact custody_of_taken some_handed client task idle handling ht hmove
  | @gone p k u some_handed client task stopped idle handling =>
    obtain ⟨hreaping, hclient, hhandling, hstays⟩ := hmove.not_reaps (idle t hmem) client
    have hidle := forall_mem_set idle (i := i) hreaping
    by_cases hk : i = k
    · subst hk
      rw [ht] at task
      obtain rfl := Option.some.inj task
      have hset := List.getElem?_set_self (a := t') (List.getElem?_eq_some_iff.1 ht).1
      exact .gone some_handed (hclient ▸ client) hset (hstays stopped) hidle
        (hhandling.trans handling)
    · have htask : (ts.set i t')[k]? = some u := by
        rw [List.getElem?_set_ne hk]
        exact task
      exact .gone some_handed (hclient ▸ client) htask stopped hidle (hhandling.trans handling)

/-- The custody goes on whatever the caller does next. -/
theorem Custody.act (h : Custody handed before ts s) (env : Surroundings) (a : Act) :
    Custody handed before (act env (ts, s) a).1 (act env (ts, s) a).2 := by
  cases a with
  | begin c => exact h.begin c
  | go i =>
    simp only [Session.act, stepAt]
    split
    · exact h
    · rename_i t ht
      exact h.move ht (step_move env t s)

/-- The custody through a whole life. -/
theorem Custody.live (h : Custody handed before [] s) (env : Surroundings) (acts : List Act) :
    Custody handed before (live env acts s).1 (live env acts s).2 := by
  -- the induction is on the acts, and the custody is the invariant of the fold
  have hgeneral : ∀ (acts : List Act) (ts : List Task) (s : Session), Custody handed before ts s →
      Custody handed before (acts.foldl (Session.act env) (ts, s)).1
        (acts.foldl (Session.act env) (ts, s)).2 := by
    intro acts
    induction acts with
    | nil => exact fun _ _ h => h
    | cons a acts ih => exact fun ts s h => ih _ _ (h.act env a)
  exact hgeneral acts [] s h

/-! ## The end of a client -/

/-- What is being reaped is reaped to its end, also when nobody waits for it. -/
def finishReaping (env : Surroundings) : List Task → Session → Session
  | [], s => s
  | t :: ts, s => finishReaping env ts (afterTurn env t s).2

/-- The end of a client: it is dropped, and no process is left halfway. -/
def close (env : Surroundings) (ts : List Task) (s : Session) : Session :=
  (finishReaping env ts s).drop

/-- Nothing is reaped if no call does it. -/
theorem finishReaping_of_idle (env : Surroundings) (s : Session)
    (idle : ∀ t ∈ ts, t.isReaping = false) : finishReaping env ts s = s := by
  induction ts with
  | nil => rfl
  | cons t ts ih =>
    have hfirst := idle t List.mem_cons_self
    rw [finishReaping, afterTurn, hfirst]
    exact ih fun u hu => idle u (List.mem_cons_of_mem t hu)

/-- The one stop that has a process reaps it. -/
theorem finishReaping_of_taken (env : Surroundings) (s : Session) {p : ProcessHandle} {k : Nat}
    {message : String} (task : ts[k]? = some ⟨.stop, .reaping p message⟩)
    (idle : ∀ j ≠ k, ∀ t, ts[j]? = some t → t.isReaping = false) :
    finishReaping env ts s = reap p s := by
  induction ts generalizing k with
  | nil => exact absurd task (by simp)
  | cons t ts ih =>
    cases k with
    | zero =>
      obtain rfl : t = ⟨.stop, .reaping p message⟩ := by simpa using task
      rw [finishReaping]
      apply finishReaping_of_idle
      intro u hu
      obtain ⟨j, hj⟩ := List.mem_iff_getElem?.1 hu
      exact idle (j + 1) (Nat.succ_ne_zero j) u (by simpa using hj)
    | succ k =>
      have hfirst := idle 0 (Nat.succ_ne_zero k).symm t rfl
      rw [finishReaping, afterTurn, hfirst]
      apply ih (by simpa using task)
      intro j hj u hu
      exact idle (j + 1) (by omega) u (by simpa using hu)

theorem drop_of_none (h : s.client.process = none) : s.drop = s := by
  rw [drop, h]

/-- A client that owns a process terminates it as it is dropped. -/
theorem drop_of_some {p : ProcessHandle} (h : s.client.process = some p) :
    s.drop.client.process = none ∧
      s.drop.wire.handling = s.wire.handling ++ [.process .terminate, .released] := by
  rw [drop, h]
  refine ⟨rfl, ?_⟩
  simp [onWire, disown, log]

/-- What is done with a process in a whole life: it is reaped if a stop was acknowledged, and
terminated if not. -/
def lifeCalls (handed : Option ProcessHandle) (stopped : Bool) : List Event :=
  match handed, stopped with
  | none, _ => []
  | some p, true => reapingCalls p
  | some _, false => [.process .terminate, .released]

/-- Who owns the process: the client, until a stop is acknowledged. -/
theorem Custody.process_eq (h : Custody handed before ts s) :
    s.client.process = if ts.any Task.isStopped then none else handed := by
  cases h with
  | nothing none_handed client idle handling => simp [none_handed, client]
  | owned some_handed client fresh idle handling =>
    rw [client, some_handed, if_neg]
    simpa using fresh
  | taken some_handed client task idle handling =>
    rw [client, if_pos]
    exact List.any_eq_true.2 ⟨_, List.mem_of_getElem? task, rfl⟩
  | gone some_handed client task stopped idle handling =>
    rw [client, if_pos]
    exact List.any_eq_true.2 ⟨_, List.mem_of_getElem? task, stopped⟩

/-- What was done with the process when the client has come to its end. -/
theorem Custody.close_spec (h : Custody handed before ts s) (env : Surroundings) :
    (close env ts s).client.process = none ∧
      (close env ts s).wire.handling = before ++ lifeCalls handed (ts.any Task.isStopped) ∧
      finishReaping env ts s.drop = close env ts s := by
  cases h with
  | nothing none_handed client idle handling =>
    rw [close, finishReaping_of_idle env s idle, drop_of_none client, none_handed]
    exact ⟨client, by simp [handling, lifeCalls], finishReaping_of_idle env s idle⟩
  | owned some_handed client fresh idle handling =>
    have hany : ts.any Task.isStopped = false := by simpa using fresh
    obtain ⟨hnone, hhandling⟩ := drop_of_some client
    rw [close, finishReaping_of_idle env s idle, hany, some_handed, lifeCalls]
    exact ⟨hnone, by rw [hhandling, handling], finishReaping_of_idle env s.drop idle⟩
  | @taken p k message some_handed client task idle handling =>
    have hany : ts.any Task.isStopped = true :=
      List.any_eq_true.2 ⟨_, List.mem_of_getElem? task, rfl⟩
    obtain ⟨hclient, hhandling⟩ := reap_spec p s
    have hnone : (reap p s).client.process = none := by rw [hclient, client]
    rw [close, finishReaping_of_taken env s task idle, drop_of_none hnone, drop_of_none client,
      hany, some_handed, lifeCalls]
    exact ⟨hnone, by rw [hhandling, handling], finishReaping_of_taken env s task idle⟩
  | gone some_handed client task stopped idle handling =>
    have hany : ts.any Task.isStopped = true :=
      List.any_eq_true.2 ⟨_, List.mem_of_getElem? task, stopped⟩
    rw [close, finishReaping_of_idle env s idle, drop_of_none client, hany, some_handed, lifeCalls]
    exact ⟨client, handling, finishReaping_of_idle env s idle⟩

/-! ## Whole lives -/

/-- The whole life of a process that is handed to an establishment.  If that fails, or there is
no transport at all, the process is terminated and let go.  If it connects, the client owns the
process through any calls in any order of their steps, until a stop is acknowledged, which is
until its answer is a message; a call that fails changes nothing.  At the end of the client the
process has been reaped by one stop, or is terminated as the client is dropped, and that is all
that was ever done with it. -/
theorem ownership (e : Establisher) (env : Surroundings) (w : Wire)
    (hfits : (BackoffSchedule.ofConfig e.config).Representable) :
    (∀ cause, (e.refuse cause w).2.handling = w.handling ++
      if e.process.isSome then [.process .terminate, .released] else []) ∧
    ∃ ending after, e.establish env w = (ending, after) ∧
      match ending with
      | .overflow => False
      | .failed _ => after.handling = w.handling ++
          if e.process.isSome then [.process .terminate, .released] else []
      | .connected client => ∀ acts, ∃ ts s,
          live env acts { client, wire := after } = (ts, s) ∧
          s.client.process = (if ts.any Task.isStopped then none else e.process) ∧
          (∀ t ∈ ts, ∀ err, (step env t s).1.outcome? = some (.error err) →
            (step env t s).2.client = s.client ∧
              (step env t s).2.wire.handling = s.wire.handling) ∧
          (∀ id due answer, ⟨.stop, .awaiting id due answer⟩ ∈ ts →
            ((step env ⟨.stop, .awaiting id due answer⟩ s).1.isStopped = true ↔
              ∃ message, Call.stop.conclude id answer = .ok message)) ∧
          (∀ p message, ⟨.stop, .reaping p message⟩ ∈ ts →
            (step env ⟨.stop, .reaping p message⟩ s).1.outcome? = some (.ok message)) ∧
          (close env ts s).client.process = none ∧
          finishReaping env ts s.drop = close env ts s ∧
          (close env ts s).wire.handling = w.handling ++
            match e.process, ts.any Task.isStopped with
            | none, _ => []
            | some _, false => [.process .terminate, .released]
            | some p, true => .process (.waitForExit (.ofSecs 5)) ::
                match p.exits with
                | .ok false => [.process .terminate, .released]
                | .ok true | .error _ => [.released] := by
  refine ⟨?_, ?_⟩
  · intro cause
    have hquiet := Establishment.quiet_fail e { wire := w } (.transport cause)
    rw [Establisher.refuse, (Establisher.views_of_leave hquiet).2.2]
    simp [Establisher.disposal]
  obtain ⟨ending, after, v, hrun, hcourse, hquiet⟩ := Establishment.run_course e env w
  refine ⟨ending, after, hrun, ?_⟩
  have hhandling : after.handling = w.handling ++ e.disposal ending := by
    rw [(Establisher.views_of_leave hquiet).2.2, hcourse.handling]
  cases ending with
  | overflow => exact absurd rfl (hcourse.ne_overflow hfits)
  | failed err => exact hhandling
  | connected client =>
    intro acts
    have hclient := hcourse.process_eq
    have hbefore : after.handling = w.handling := by simpa [Establisher.disposal] using hhandling
    have hstart : Custody e.process w.handling [] { client, wire := after } := by
      cases hprocess : e.process with
      | none => exact .nothing rfl (hclient.trans hprocess) (by simp) hbefore
      | some p => exact .owned rfl (hclient.trans hprocess) (by simp) (by simp) hbefore
    obtain ⟨ts, s, hlive⟩ : ∃ ts s, live env acts { client, wire := after } = (ts, s) :=
      ⟨_, _, rfl⟩
    have hcustody := hstart.live env acts
    rw [hlive] at hcustody
    obtain ⟨hend, hcalls, horder⟩ := hcustody.close_spec env
    refine ⟨ts, s, hlive, hcustody.process_eq, ?_, ?_, ?_, hend, horder, ?_⟩
    · intro t _ err herror
      exact (step_move env t s).of_error herror
    · intro id due answer _
      exact isStopped_step_iff env s id due answer
    · intro p message _
      rfl
    · rw [hcalls]
      cases e.process with
      | none => rfl
      | some p =>
        cases ts.any Task.isStopped with
        | false => rfl
        | true => rfl

/-- The object with the id `a` and an empty string as its result. -/
def emptyMessage : Bytes :=
  [0x7b, 0x22, 0x69, 0x64, 0x22, 0x3a, 0x22, 0x61, 0x22, 0x2c, 0x22, 0x72, 0x65, 0x73, 0x75, 0x6c,
    0x74, 0x22, 0x3a, 0x22, 0x22, 0x7d]

/-- A transport that answers every request with an empty message. -/
def acknowledging : Surroundings where
  newId _ := "a"
  transport _ := { answer := .ok emptyMessage }

/-- What its answer means. -/
theorem receive_emptyMessage : receive "a" (.ok emptyMessage) = .ok (.string "") := by
  have hread : Json.read emptyMessage =
      .ok (.object [("id", .string "a"), ("result", .string "")]) := by
    cbv
  simp [receive, receiveBytes, Response.ofBytes, hread, Response.ofJson, Json.find?,
    Response.errorOf, Response.idOf, Response.outcome, bind, Except.bind, pure, Except.pure]

/-- Two stops at once, of which the first has taken the process when the client is dropped.  The
process does not exit in time. -/
theorem ownership_two_stops :
    let e : Establisher :=
      { config := .ofChanges default "" "" []
        process := some { exits := .ok false, terminates := .ok () } }
    (BackoffSchedule.ofConfig e.config).Representable ∧
      ∃ client after ts s, e.establish acknowledging {} = (.connected client, after) ∧
        live acknowledging [.begin .stop, .begin .stop, .go 0, .go 1, .go 0, .go 1]
          { client, wire := after } = (ts, s) ∧
        s.client.process = none ∧
        (close acknowledging ts s).wire.handling =
          [.process (.waitForExit (.ofSecs 5)), .process .terminate, .released] := by
  intro e
  have hfits : (BackoffSchedule.ofConfig e.config).Representable := by
    unfold BackoffSchedule.Representable
    decide
  obtain ⟨-, ending, after, hrun, hmatch⟩ := ownership e acknowledging {} hfits
  have hanswer : ∀ i, e.outcomeAt acknowledging {} i = .ok (.string "") := fun _ =>
    receive_emptyMessage
  have hstop : Call.stop.conclude "a" (.ok emptyMessage) = .ok "" := by
    rw [Call.conclude, receive_emptyMessage]
    rfl
  have henv : acknowledging.NeverCancels := fun _ => rfl
  have hw : ({} : Wire).Uncancelled := ⟨rfl, rfl⟩
  obtain ⟨ending', after', i, hrun', hreached, hconcluded⟩ :=
    Establishment.establish_uncancelled henv hw (e := e)
  obtain ⟨rfl, rfl⟩ := Prod.mk.inj (hrun.symm.trans hrun')
  obtain ⟨hconcludes, -⟩ :=
    hconcluded.resolve_right (Nat.not_lt_of_le (hreached.nanosUpTo_le hfits))
  cases hconcludes with
  | exhausted answer _ =>
    rw [hanswer] at answer
    exact absurd answer (by simp)
  | @connected v answer =>
    obtain ⟨ts, s, hlive, hprocess, -, -, -, -, -, hcalls⟩ :=
      hmatch [.begin .stop, .begin .stop, .go 0, .go 1, .go 0, .go 1]
    have hstopped : (live acknowledging [.begin .stop, .begin .stop, .go 0, .go 1, .go 0, .go 1]
        { client := e.clientOf v, wire := after }).1.any Task.isStopped = true := by
      simp [live, act, stepAt, step, dispatch, Call.route, Call.catalogued, Method.supported,
        Wire.send, acknowledging, deliver, hstop, isStopped_settle]
    rw [hlive] at hstopped
    rw [if_pos hstopped] at hprocess
    rw [hstopped] at hcalls
    exact ⟨hfits, _, after, ts, s, hrun, hlive, hprocess, hcalls⟩

end Session

end DaemonRpc
