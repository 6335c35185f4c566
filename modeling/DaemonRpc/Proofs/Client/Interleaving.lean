import DaemonRpc.Proofs.Client.Ownership
import DaemonRpc.Proofs.Rpc.Response

/-!
# Calls that are under way at once

Calls on one client share its wire, and their steps may follow each other in any order.  Each of
them still ends as it would alone: with what the answer to its own request means under its own id.

* `Session.Stride` is all that one step of a call can do, and `step_stride` shows that there is
  nothing else.  `perform_of_route` takes the three strides of a call that is alone.
* `Session.Ledger` says which call sent which request and how far each call is.  `Ledger.act`
  keeps it from step to step, and `Ledger.live` through a life.
* `isDone_of_turns` is the progress of a call: three turns of its own end it.
* `receive_of_foreign` is what a result means that belongs to another request.
* `calls_independent` puts them together.
-/

namespace DaemonRpc

/-- A reply with the result of one request is to any other that of a foreign request. -/
theorem receive_of_foreign {own other : String} {body : Bytes} {v : Json}
    (h : receive other (.ok body) = .ok v) (hne : other ≠ own) :
    receive own (.ok body) = .error (.protocol (.idMismatch own other)) := by
  have hother : receiveBytes other body = .ok v := h
  show receiveBytes own body = _
  unfold receiveBytes at hother ⊢
  cases hread : Response.ofBytes body with
  | error m =>
    rw [hread] at hother
    exact absurd hother (by simp)
  | ok r =>
    rw [hread] at hother
    obtain ⟨herror, hid, -⟩ := Response.outcome_eq_ok_iff.1 hother
    simp [Response.outcome, herror, hid, hne]

/-- The only calls that go nowhere are those of a method that is not supported. -/
theorem Call.unsupported_of_route {c : Call} {err : Error} (h : c.route = .error err) :
    ∃ m : Method, m.supported = false ∧ err = .unsupported m := by
  have hcatalogued : ∀ {m : Method} {params : Params}, catalogued m params = .error err →
      ∃ m : Method, m.supported = false ∧ err = .unsupported m := by
    intro m params hm
    unfold catalogued at hm
    split at hm
    · exact absurd hm (by simp)
    · rename_i hsupported
      exact ⟨m, by simpa using hsupported, (Except.error.inj hm).symm⟩
  cases c with
  | operation op => exact hcatalogued h
  | stop => exact hcatalogued h
  | invoke m params => exact hcatalogued h
  | byName name params =>
    simp only [route] at h
    split at h
    · exact hcatalogued h
    · exact absurd h (by simp)

/-- A call that has ended is known by its outcome. -/
theorem Task.eq_of_outcome {t : Task} {outcome : Except Error t.call.Result}
    (h : t.outcome? = some outcome) : t = ⟨t.call, .done outcome⟩ := by
  obtain ⟨c, progress⟩ := t
  cases progress with
  | done outcome' =>
    obtain rfl : outcome' = outcome := Option.some.inj h
    rfl
  | ready => exact absurd h (by simp [outcome?])
  | awaiting id due answer => exact absurd h (by simp [outcome?])
  | reaping p result => exact absurd h (by simp [outcome?])

namespace Session

variable {env : Surroundings}

/-! ## One step -/

/-- How far a call is whose answer has come: it has ended, or it is a stop that reaps first. -/
inductive Answered (c : Call) (id : String) (answer : Except TransportError Bytes) :
    Progress c → Prop where
  | reaping {p : ProcessHandle} {result : c.Result}
      (result_eq : c.conclude id answer = .ok result) : Answered c id answer (.reaping p result)
  | ended : Answered c id answer (.done (c.conclude id answer))

/-- The request that a call sends over a wire, as the transport sees it. -/
def sentOver (env : Surroundings) (w : Wire) (method : String) (params : Params) : Sent where
  number := w.sent
  previous := w.previous
  request := { method, params, id := env.newId w.sent }

/-- What one step of a call can be, with the requests that it sends. -/
inductive Stride (env : Surroundings) (w : Wire) : Task → List Sent → Task → Prop where
  | sends {c : Call} {method : String} {params : Params} {due : Nat}
      (route : c.route = .ok (method, params)) :
      Stride env w ⟨c, .ready⟩ [sentOver env w method params]
        ⟨c, .awaiting (env.newId w.sent) due (env.transport (sentOver env w method params)).answer⟩
  | refuses {c : Call} {err : Error} (route : c.route = .error err) :
      Stride env w ⟨c, .ready⟩ [] ⟨c, .done (.error err)⟩
  | receives {c : Call} {id : String} {due : Nat} {answer : Except TransportError Bytes}
      {progress : Progress c} (answered : Answered c id answer progress) :
      Stride env w ⟨c, .awaiting id due answer⟩ [] ⟨c, progress⟩
  | reaps {c : Call} {p : ProcessHandle} {result : c.Result} :
      Stride env w ⟨c, .reaping p result⟩ [] ⟨c, .done (.ok result)⟩
  | rests {c : Call} {outcome : Except Error c.Result} :
      Stride env w ⟨c, .done outcome⟩ [] ⟨c, .done outcome⟩

/-- What goes over a wire between two times is the given requests. -/
structure Traffic (before : Wire) (new : List Sent) (after : Wire) : Prop where
  requests : after.requests.map Prod.fst = before.requests.map Prod.fst ++ new.map (·.request)
  count : after.sent = before.sent + new.length

theorem Traffic.refl (w : Wire) : Traffic w [] w where
  requests := (List.append_nil _).symm
  count := rfl

/-- What goes over a wire first and then is what goes over it in all. -/
theorem Traffic.trans {u v w : Wire} {first next : List Sent} (h : Traffic u first v)
    (h' : Traffic v next w) : Traffic u (first ++ next) w where
  requests := by rw [h'.requests, h.requests, List.map_append, List.append_assoc]
  count := by rw [h'.count, h.count, List.length_append, Nat.add_assoc]

/-- Whatever is noted that is no request goes over no wire. -/
theorem Traffic.note {v w : Wire} {new : List Sent} (h : Traffic v new w) {event : Event}
    (hevent : event.sent? = none) : Traffic v new (w.note event) where
  requests := by
    rw [Wire.requests_note, hevent, Option.toList_none, List.append_nil]
    exact h.requests
  count := h.count

theorem traffic_send (env : Surroundings) (w : Wire) (method : String) (params : Params) :
    Traffic w [sentOver env w method params] (w.send env method params).2.2 where
  requests := by
    rw [Wire.requests_send, List.map_append]
    rfl
  count := by
    obtain ⟨_, _, after, hsend, -, -, hafter⟩ := Wire.quiet_send env w method params
    rw [hsend]
    exact (Wire.fields_of_quiet hafter).2.2.2.1

/-- Taking an answer sends nothing. -/
theorem traffic_take (w : Wire) (due : Nat) (answer : Except TransportError Bytes) :
    Traffic w [] ((w.advance due).take answer) := by
  have hwait : Traffic w [] (w.advance due) := ⟨(List.append_nil _).symm, rfl⟩
  cases answer with
  | ok body => exact hwait.note rfl
  | error _ => exact hwait

/-- Reaping a process sends nothing. -/
theorem traffic_reap (p : ProcessHandle) (s : Session) : Traffic s.wire [] (reap p s).wire := by
  have hasked : Traffic s.wire [] (s.wire.note (.process (.waitForExit shutdownGrace))) :=
    (Traffic.refl s.wire).note rfl
  unfold reap
  cases p.exits with
  | error reason => exact (hasked.note rfl).note rfl
  | ok exited =>
    cases exited with
    | true => exact hasked.note rfl
    | false =>
      cases p.terminates with
      | ok _ => exact ((hasked.note rfl).note rfl).note rfl
      | error reason => exact (((hasked.note rfl).note rfl).note rfl).note rfl

/-- What follows an answer that is a result. -/
theorem settle_spec {c : Call} {id : String} {answer : Except TransportError Bytes}
    {result : c.Result} (h : c.conclude id answer = .ok result) {v : Wire} {s : Session}
    (htraffic : Traffic v [] s.wire) :
    Answered c id answer (settle c result s).1 ∧ Traffic v [] (settle c result s).2.wire := by
  have hended : Answered c id answer (.done (.ok result)) := h ▸ .ended
  cases c with
  | stop =>
    simp only [settle, log, onWire]
    cases s.client.process with
    | none => exact ⟨hended, htraffic.note rfl⟩
    | some p => exact ⟨.reaping h, htraffic.note rfl⟩
  | operation op => exact ⟨hended, htraffic⟩
  | invoke m params => exact ⟨hended, htraffic⟩
  | byName name params => exact ⟨hended, htraffic⟩

/-- A step of a call is a stride, and what it sends goes over the wire. -/
theorem step_stride (env : Surroundings) (t : Task) (s : Session) :
    ∃ new, Stride env s.wire t new (step env t s).1 ∧
      Traffic s.wire new (step env t s).2.wire := by
  obtain ⟨c, progress⟩ := t
  cases progress with
  | ready =>
    cases hroute : c.route with
    | error err =>
      simp only [step, dispatch, hroute]
      exact ⟨[], .refuses hroute, .refl s.wire⟩
    | ok target =>
      simp only [step, dispatch, hroute]
      exact ⟨_, .sends hroute, traffic_send env s.wire target.1 target.2⟩
  | awaiting id due answer =>
    have htake := traffic_take s.wire due answer
    simp only [step, deliver, onWire]
    cases hconclude : c.conclude id answer with
    | error err =>
      have hended : Answered c id answer (.done (.error err)) := hconclude ▸ .ended
      exact ⟨[], .receives hended, htake⟩
    | ok result =>
      obtain ⟨hanswered, htraffic⟩ :=
        settle_spec hconclude (s := { s with wire := (s.wire.advance due).take answer }) htake
      exact ⟨[], .receives hanswered, htraffic⟩
  | reaping p result => exact ⟨[], .reaps, traffic_reap p s⟩
  | done outcome => exact ⟨[], .rests, .refl s.wire⟩

/-! ## A call that is alone -/

/-- A call that is alone ends with what the answer to its request means. -/
theorem perform_of_route {c : Call} {method : String} {params : Params}
    (hroute : c.route = .ok (method, params)) (env : Surroundings) (s : Session) :
    (perform env c s).1 = ⟨c, .done (c.conclude (env.newId s.wire.sent)
      (env.transport (sentOver env s.wire method params)).answer)⟩ := by
  obtain ⟨t₁, s₁, h₁⟩ : ∃ t₁ s₁, step env { call := c } s = (t₁, s₁) := ⟨_, _, rfl⟩
  obtain ⟨t₂, s₂, h₂⟩ : ∃ t₂ s₂, step env t₁ s₁ = (t₂, s₂) := ⟨_, _, rfl⟩
  obtain ⟨t₃, s₃, h₃⟩ : ∃ t₃ s₃, step env t₂ s₂ = (t₃, s₃) := ⟨_, _, rfl⟩
  have hperform : perform env c s = (t₃, s₃) := by
    simp only [perform, h₁, h₂, h₃]
  obtain ⟨_, hfirst, -⟩ := step_stride env { call := c } s
  obtain ⟨_, hsecond, -⟩ := step_stride env t₁ s₁
  obtain ⟨_, hthird, -⟩ := step_stride env t₂ s₂
  rw [h₁] at hfirst
  rw [h₂] at hsecond
  rw [h₃] at hthird
  rw [hperform]
  cases hfirst with
  | refuses route => exact absurd (route.symm.trans hroute) (by simp)
  | sends route =>
    obtain ⟨rfl, rfl⟩ := Prod.mk.inj (Except.ok.inj (route.symm.trans hroute))
    cases hsecond with
    | receives answered =>
      cases answered with
      | ended =>
        cases hthird
        rfl
      | reaping result_eq =>
        cases hthird
        rw [result_eq]

/-! ## What each call has sent -/

/-- How far a call is, with its number, when the given requests have been sent by the given
calls. -/
inductive Stands (env : Surroundings) (sent : List (Nat × Sent)) (k : Nat) : Task → Prop where
  /-- It has not begun. -/
  | unsent {c : Call} (silent : k ∉ sent.map Prod.fst) : Stands env sent k ⟨c, .ready⟩
  /-- It has ended, and sent nothing. -/
  | refused {c : Call} {err : Error} (silent : k ∉ sent.map Prod.fst)
      (route : c.route = .error err) : Stands env sent k ⟨c, .done (.error err)⟩
  /-- Its request is under way. -/
  | awaiting {c : Call} {x : Sent} {due : Nat} (mem : (k, x) ∈ sent)
      (route : c.route = .ok (x.request.method, x.request.params)) :
      Stands env sent k ⟨c, .awaiting x.request.id due (env.transport x).answer⟩
  /-- Its request was answered. -/
  | answered {c : Call} {x : Sent} {progress : Progress c} (mem : (k, x) ∈ sent)
      (route : c.route = .ok (x.request.method, x.request.params))
      (answered : Answered c x.request.id (env.transport x).answer progress) :
      Stands env sent k ⟨c, progress⟩

/-- Which call sent which request since the wire was `before`, and how far each call is. -/
structure Ledger (env : Surroundings) (before : Wire) (sent : List (Nat × Sent)) (ts : List Task)
    (s : Session) : Prop where
  traffic : Traffic before (sent.map Prod.snd) s.wire
  numbers : sent.map (·.2.number) = List.range' before.sent sent.length
  ids : ∀ x ∈ sent, x.2.request.id = env.newId x.2.number
  once : (sent.map Prod.fst).Nodup
  begun : ∀ x ∈ sent, x.1 < ts.length
  each : ∀ k t, ts[k]? = some t → Stands env sent k t

variable {before : Wire} {sent : List (Nat × Sent)} {ts : List Task} {s : Session}

/-- What the other calls send does not matter to a call. -/
theorem Stands.others {k : Nat} {t : Task} (h : Stands env sent k t) {more : List (Nat × Sent)}
    (hmore : k ∉ more.map Prod.fst) : Stands env (sent ++ more) k t := by
  have hsilent : k ∉ sent.map Prod.fst → k ∉ (sent ++ more).map Prod.fst := by
    intro hsent
    rw [List.map_append, List.mem_append]
    exact not_or.2 ⟨hsent, hmore⟩
  cases h with
  | unsent silent => exact .unsent (hsilent silent)
  | refused silent route => exact .refused (hsilent silent) route
  | awaiting mem route => exact .awaiting (List.mem_append_left more mem) route
  | answered mem route answered => exact .answered (List.mem_append_left more mem) route answered

/-- A step of a call leaves it as far as it then is. -/
theorem Stands.stride {k : Nat} {t t' : Task} (h : Stands env sent k t) {w : Wire}
    {new : List Sent} (hstride : Stride env w t new t') :
    Stands env (sent ++ new.map (Prod.mk k)) k t' := by
  cases hstride with
  | sends route => exact .awaiting (x := sentOver env w _ _) (by simp) route
  | refuses route =>
    cases h with
    | unsent silent => exact .refused (by simpa using silent) route
    | answered _ _ answered => nomatch answered
  | receives answered =>
    rw [List.map_nil, List.append_nil]
    cases h with
    | awaiting mem route => exact .answered mem route answered
    | answered _ _ answered => nomatch answered
  | reaps =>
    rw [List.map_nil, List.append_nil]
    cases h with
    | answered mem route answered =>
      cases answered with
      | reaping result_eq => exact .answered mem route (result_eq ▸ .ended)
  | rests =>
    rw [List.map_nil, List.append_nil]
    exact h

/-- Only a call that has sent nothing sends something. -/
theorem Stands.silent_of_sends {k : Nat} {t t' : Task} (h : Stands env sent k t) {w : Wire}
    {x : Sent} {new : List Sent} (hstride : Stride env w t (x :: new) t') :
    k ∉ sent.map Prod.fst ∧ new = [] ∧ x.number = w.sent ∧ x.request.id = env.newId x.number := by
  cases hstride with
  | sends route =>
    refine ⟨?_, rfl, rfl, rfl⟩
    cases h with
    | unsent silent => exact silent
    | answered _ _ answered => nomatch answered

/-- The ledger goes on when a call is begun. -/
theorem Ledger.begin (h : Ledger env before sent ts s) (c : Call) :
    Ledger env before sent (ts ++ [{ call := c }]) s where
  traffic := h.traffic
  numbers := h.numbers
  ids := h.ids
  once := h.once
  begun x hx := by
    rw [List.length_append]
    exact Nat.lt_add_right _ (h.begun x hx)
  each k t ht := by
    rcases Nat.lt_or_ge k ts.length with hlt | hge
    · rw [List.getElem?_append_left hlt] at ht
      exact h.each k t ht
    · have hlast : t = { call := c } := by
        rw [List.getElem?_append_right hge] at ht
        exact List.mem_singleton.1 (List.mem_of_getElem? ht)
      subst hlast
      apply Stands.unsent
      intro hmem
      obtain ⟨x, hx, rfl⟩ := List.mem_map.1 hmem
      exact absurd (h.begun x hx) (Nat.not_lt_of_ge hge)

/-- The ledger goes on when one of the calls takes a step. -/
theorem Ledger.stride (h : Ledger env before sent ts s) {i : Nat} {t t' : Task} {s' : Session}
    {new : List Sent} (ht : ts[i]? = some t) (hstride : Stride env s.wire t new t')
    (htraffic : Traffic s.wire new s'.wire) :
    Ledger env before (sent ++ new.map (Prod.mk i)) (ts.set i t') s' := by
  have hstands := h.each i t ht
  have hbelow := (List.getElem?_eq_some_iff.1 ht).1
  have heach : ∀ k u, (ts.set i t')[k]? = some u →
      Stands env (sent ++ new.map (Prod.mk i)) k u := by
    intro k u hu
    rcases getElem?_set_cases hu with ⟨rfl, rfl⟩ | ⟨hne, hold⟩
    · exact hstands.stride hstride
    · apply (h.each k u hold).others
      rw [List.map_map]
      intro hmem
      obtain ⟨_, -, rfl⟩ := List.mem_map.1 hmem
      exact hne rfl
  have hall : Traffic before ((sent ++ new.map (Prod.mk i)).map Prod.snd) s'.wire := by
    have hnew : (new.map (Prod.mk i)).map Prod.snd = new := by
      rw [List.map_map]
      exact List.map_id new
    rw [List.map_append, hnew]
    exact h.traffic.trans htraffic
  cases new with
  | nil =>
    rw [List.map_nil, List.append_nil] at heach hall ⊢
    exact ⟨hall, h.numbers, h.ids, h.once, by simpa using h.begun, heach⟩
  | cons x new =>
    obtain ⟨hsilent, rfl, hnumber, hid⟩ := hstands.silent_of_sends hstride
    refine ⟨hall, ?_, ?_, ?_, ?_, heach⟩
    · have hcount : s.wire.sent = before.sent + sent.length := by
        rw [h.traffic.count, List.length_map]
      simp [h.numbers, hnumber, hcount, List.range'_concat]
    · intro y hy
      rcases List.mem_append.1 hy with hold | hnew
      · exact h.ids y hold
      · obtain rfl : y = (i, x) := by simpa using hnew
        exact hid
    · rw [List.map_append]
      exact List.nodup_append_comm.1 (List.nodup_cons.2 ⟨hsilent, h.once⟩)
    · intro y hy
      rw [List.length_set]
      rcases List.mem_append.1 hy with hold | hnew
      · exact h.begun y hold
      · obtain rfl : y = (i, x) := by simpa using hnew
        exact hbelow

/-- The ledger goes on whatever the caller does next. -/
theorem Ledger.act (h : Ledger env before sent ts s) (a : Act) :
    ∃ sent', Ledger env before sent' (act env (ts, s) a).1 (act env (ts, s) a).2 := by
  cases a with
  | begin c => exact ⟨sent, h.begin c⟩
  | go i =>
    simp only [Session.act, stepAt]
    cases ht : ts[i]? with
    | none => exact ⟨sent, h⟩
    | some t =>
      obtain ⟨new, hstride, htraffic⟩ := step_stride env t s
      exact ⟨_, h.stride ht hstride htraffic⟩

/-- Each request was sent by one of the calls, with the method and the parameters that it asks
for. -/
theorem Ledger.route_of_mem (h : Ledger env before sent ts s) {k : Nat} {x : Sent}
    (hx : (k, x) ∈ sent) :
    ∃ t, ts[k]? = some t ∧ t.call.route = .ok (x.request.method, x.request.params) := by
  obtain ⟨t, ht⟩ : ∃ t, ts[k]? = some t := ⟨_, List.getElem?_eq_getElem (h.begun (k, x) hx)⟩
  have hsent : k ∈ sent.map Prod.fst := List.mem_map_of_mem hx
  have hsame : ∀ {y : Sent}, (k, y) ∈ sent → y = x := by
    intro y hy
    exact (Prod.mk.inj (List.inj_on_of_nodup_map h.once hy hx rfl)).2
  refine ⟨t, ht, ?_⟩
  rcases h.each k _ ht with ⟨silent⟩ | ⟨silent, -⟩ | ⟨mem, route⟩ | ⟨mem, route, -⟩
  · exact absurd hsent silent
  · exact absurd hsent silent
  · rw [← hsame mem]
    exact route
  · rw [← hsame mem]
    exact route

/-- There is a ledger of every life. -/
theorem exists_ledger (env : Surroundings) (acts : List Act) (s : Session) :
    ∃ sent, Ledger env s.wire sent (live env acts s).1 (live env acts s).2 := by
  -- the induction is on the acts, and the ledger is the invariant of the fold
  have hgeneral : ∀ (acts : List Act) (sent : List (Nat × Sent)) (ts : List Task) (r : Session),
      Ledger env s.wire sent ts r → ∃ sent', Ledger env s.wire sent'
        (acts.foldl (Session.act env) (ts, r)).1 (acts.foldl (Session.act env) (ts, r)).2 := by
    intro acts
    induction acts with
    | nil => exact fun sent _ _ h => ⟨sent, h⟩
    | cons a acts ih =>
      intro sent ts r h
      obtain ⟨sent', h'⟩ := h.act a
      exact ih sent' _ _ h'
  exact hgeneral acts [] [] s
    ⟨.refl s.wire, rfl, by simp, List.nodup_nil, by simp, by simp⟩

/-! ## Progress -/

/-- How many more steps a call takes at most. -/
def stepsLeft (t : Task) : Nat :=
  match t.progress with
  | .ready => 3
  | .awaiting _ _ _ => 2
  | .reaping _ _ => 1
  | .done _ => 0

theorem isDone_of_stepsLeft {t : Task} (h : stepsLeft t = 0) : t.isDone = true := by
  obtain ⟨c, progress⟩ := t
  cases progress with
  | done outcome => rfl
  | ready => exact absurd h (by simp [stepsLeft])
  | awaiting id due answer => exact absurd h (by simp [stepsLeft])
  | reaping p result => exact absurd h (by simp [stepsLeft])

/-- A step of a call is one step less. -/
theorem Stride.stepsLeft_le {w : Wire} {t t' : Task} {new : List Sent}
    (h : Stride env w t new t') : t'.call = t.call ∧ stepsLeft t' ≤ stepsLeft t - 1 := by
  cases h with
  | sends route => exact ⟨rfl, by simp [stepsLeft]⟩
  | refuses route => exact ⟨rfl, by simp [stepsLeft]⟩
  | receives answered =>
    cases answered with
    | reaping result_eq => exact ⟨rfl, by simp [stepsLeft]⟩
    | ended => exact ⟨rfl, by simp [stepsLeft]⟩
  | reaps => exact ⟨rfl, by simp [stepsLeft]⟩
  | rests => exact ⟨rfl, by simp [stepsLeft]⟩

/-- A turn of the call of the given number. -/
def Act.goes (k : Nat) : Act → Bool
  | .begin _ => false
  | .go i => i == k

/-- Each turn of a call is one step less, whatever happens in between. -/
theorem stepsLeft_foldl (env : Surroundings) {k : Nat} (acts : List Act) {t : Task}
    (ht : ts[k]? = some t) :
    ∃ t', (acts.foldl (Session.act env) (ts, s)).1[k]? = some t' ∧ t'.call = t.call ∧
      stepsLeft t' ≤ stepsLeft t - acts.countP (Act.goes k) := by
  induction acts generalizing ts s t with
  | nil => exact ⟨t, ht, rfl, Nat.le_refl _⟩
  | cons a acts ih =>
    rw [List.foldl_cons, List.countP_cons]
    have hbelow := (List.getElem?_eq_some_iff.1 ht).1
    have hnext : ∃ t', (Session.act env (ts, s) a).1[k]? = some t' ∧ t'.call = t.call ∧
        stepsLeft t' ≤ stepsLeft t - if Act.goes k a then 1 else 0 := by
      cases a with
      | begin c =>
        refine ⟨t, ?_, rfl, Nat.le_refl _⟩
        show (ts ++ [_])[k]? = some t
        rw [List.getElem?_append_left hbelow]
        exact ht
      | go i =>
        by_cases hik : i = k
        · subst hik
          obtain ⟨new, hstride, -⟩ := step_stride env t s
          obtain ⟨hcall, hless⟩ := hstride.stepsLeft_le
          refine ⟨(step env t s).1, ?_, hcall, by simpa [Act.goes] using hless⟩
          simp only [Session.act, stepAt, ht]
          exact List.getElem?_set_self hbelow
        · refine ⟨t, ?_, rfl, by simp [Act.goes, hik]⟩
          simp only [Session.act, stepAt]
          cases ts[i]? with
          | none => exact ht
          | some u =>
            show (ts.set i _)[k]? = some t
            rw [List.getElem?_set_ne hik]
            exact ht
    obtain ⟨t', ht', hcall', hless'⟩ := hnext
    obtain ⟨t'', ht'', hcall'', hless''⟩ := ih (s := (Session.act env (ts, s) a).2) ht'
    refine ⟨t'', ht'', hcall''.trans hcall', ?_⟩
    omega

/-- Three turns of its own end a call, in whatever order it and the others take theirs. -/
theorem isDone_of_turns (env : Surroundings) {k : Nat} {acts : List Act} {t : Task}
    (ht : ts[k]? = some t) (hturns : 3 ≤ acts.countP (Act.goes k)) :
    ∃ t', (acts.foldl (Session.act env) (ts, s)).1[k]? = some t' ∧ t'.call = t.call ∧
      t'.isDone = true := by
  obtain ⟨t', ht', hcall, hless⟩ := stepsLeft_foldl env (s := s) acts ht
  have hthree : stepsLeft t ≤ 3 := by
    unfold stepsLeft
    split <;> omega
  exact ⟨t', ht', hcall, isDone_of_stepsLeft (by omega)⟩

/-! ## Whole lives -/

/-- A call that was sent and has ended has the outcome of its own request. -/
theorem Stands.outcome_eq {k : Nat} {t : Task} (h : Stands env sent k t) {method : String}
    {params : Params} (hroute : t.call.route = .ok (method, params))
    {outcome : Except Error t.call.Result} (houtcome : t.outcome? = some outcome) :
    ∃ x, (k, x) ∈ sent ∧ x.request.method = method ∧ x.request.params = params ∧
      outcome = t.call.conclude x.request.id (env.transport x).answer := by
  cases h with
  | unsent _ => exact absurd houtcome (by simp [Task.outcome?])
  | refused _ route => exact absurd (route.symm.trans hroute) (by simp)
  | awaiting _ _ => exact absurd houtcome (by simp [Task.outcome?])
  | @answered c x progress mem route answered =>
    obtain ⟨hmethod, hparams⟩ := Prod.mk.inj (Except.ok.inj (route.symm.trans hroute))
    refine ⟨x, mem, hmethod, hparams, ?_⟩
    cases answered with
    | reaping _ => exact absurd houtcome (by simp [Task.outcome?])
    | ended => exact (Option.some.inj houtcome).symm

/-- A call that goes nowhere has sent nothing, and ends with the reason. -/
theorem Stands.silent_of_route {k : Nat} {t : Task} (h : Stands env sent k t) {err : Error}
    (hroute : t.call.route = .error err) :
    k ∉ sent.map Prod.fst ∧ ∀ outcome, t.outcome? = some outcome → outcome = .error err := by
  cases h with
  | unsent silent => exact ⟨silent, by simp [Task.outcome?]⟩
  | refused silent route =>
    obtain rfl := Except.error.inj (route.symm.trans hroute)
    exact ⟨silent, fun outcome houtcome => (Option.some.inj houtcome).symm⟩
  | awaiting _ route => exact absurd (route.symm.trans hroute) (by simp)
  | answered _ route _ => exact absurd (route.symm.trans hroute) (by simp)

/-- Any number of calls on one client, in any order of their steps.  A call of a method that is not
supported sends nothing and says so.  Any other sends one request, under an id of its own, and ends
with what the answer to that request means: whatever else is under way, and whenever the answers
come, it ends as it would alone with that answer.  If the ids are different, a result that belongs
to another request, before or beside it, is of no use to it.  No call waits for another: three
turns of its own end it. -/
theorem calls_independent (env : Surroundings) (s₀ : Session) (acts : List Act) :
    ∃ ts s, ∃ sent : List (Nat × Sent), live env acts s₀ = (ts, s) ∧
      (s.wire.requests.map Prod.fst =
          s₀.wire.requests.map Prod.fst ++ sent.map (·.2.request) ∧
        sent.map (·.2.number) = List.range' s₀.wire.sent sent.length ∧
        s.wire.sent = s₀.wire.sent + sent.length ∧
        (sent.map Prod.fst).Nodup ∧ ∀ x ∈ sent, x.1 < ts.length) ∧
      ∀ k t, ts[k]? = some t →
        (∀ err, t.call.route = .error err →
          (∃ m : Method, m.supported = false ∧ err = .unsupported m) ∧
            k ∉ sent.map Prod.fst ∧ ∀ outcome, t.outcome? = some outcome → outcome = .error err) ∧
        (∀ method params, t.call.route = .ok (method, params) →
          ∀ outcome, t.outcome? = some outcome →
            ∃ x, (k, x) ∈ sent ∧ x.request = { method, params, id := env.newId x.number } ∧
              outcome = t.call.conclude x.request.id (env.transport x).answer ∧
              (∀ env' s', env'.newId s'.wire.sent = x.request.id →
                (env'.transport (sentOver env' s'.wire method params)).answer =
                  (env.transport x).answer →
                (perform env' t.call s').1 = t) ∧
              (Set.InjOn env.newId (Set.Iio s.wire.sent) →
                ∀ j < s.wire.sent, j ≠ x.number → ∀ body v,
                  (env.transport x).answer = .ok body → receive (env.newId j) (.ok body) = .ok v →
                  outcome = .error (.protocol (.idMismatch x.request.id (env.newId j))))) ∧
        ∀ more : List Act, 3 ≤ more.countP (Act.goes k) →
          ∃ t', (live env (acts ++ more) s₀).1[k]? = some t' ∧ t'.call = t.call ∧
            t'.isDone = true := by
  obtain ⟨sent, hledger⟩ := exists_ledger env acts s₀
  obtain ⟨ts, s, hlive⟩ : ∃ ts s, live env acts s₀ = (ts, s) := ⟨_, _, rfl⟩
  rw [hlive] at hledger
  have hcount : s.wire.sent = s₀.wire.sent + sent.length := by
    rw [hledger.traffic.count, List.length_map]
  refine ⟨ts, s, sent, hlive, ⟨?_, hledger.numbers, hcount, hledger.once, hledger.begun⟩, ?_⟩
  · rw [hledger.traffic.requests, List.map_map]
    rfl
  intro k t ht
  have hstands := hledger.each k t ht
  refine ⟨?_, ?_, ?_⟩
  · intro err hroute
    exact ⟨Call.unsupported_of_route hroute, hstands.silent_of_route hroute⟩
  · intro method params hroute outcome houtcome
    obtain ⟨x, hx, hmethod, hparams, hconclude⟩ := hstands.outcome_eq hroute houtcome
    have hid : x.request.id = env.newId x.number := hledger.ids _ hx
    have hnumber : x.number < s.wire.sent := by
      have hmem : x.number ∈ sent.map (·.2.number) := List.mem_map_of_mem hx
      rw [hledger.numbers, List.mem_range'_1] at hmem
      omega
    refine ⟨x, hx, ?_, hconclude, ?_, ?_⟩
    · rw [← hmethod, ← hparams, ← hid]
    · intro env' s' hid' hanswer'
      rw [perform_of_route hroute env' s', hid', hanswer', ← hconclude]
      exact (Task.eq_of_outcome houtcome).symm
    · intro hdistinct j hj hne body v hbody hforeign
      have hother : env.newId j ≠ x.request.id := by
        rw [hid]
        exact fun heq => hne (hdistinct hj hnumber heq)
      rw [hconclude, Call.conclude, hbody, receive_of_foreign hforeign hother]
  · intro more hturns
    obtain ⟨t', ht', hcall, hdone⟩ := isDone_of_turns env (s := s) ht hturns
    refine ⟨t', ?_, hcall, hdone⟩
    rw [live, List.foldl_append]
    show (more.foldl (Session.act env) (live env acts s₀)).1[k]? = some t'
    rw [hlive]
    exact ht'

/-- A call of a method ends as soon as its answer comes. -/
theorem deliver_invoke (m : Method) (params : Params) (id : String) (due : Nat)
    (answer : Except TransportError Bytes) (s : Session) :
    deliver (.invoke m params) id due answer s =
      (.done ((Call.invoke m params).conclude id answer),
        s.onWire fun w => (w.advance due).take answer) := by
  unfold deliver
  cases (Call.invoke m params).conclude id answer with
  | error _ => rfl
  | ok _ => rfl

/-- A transport that answers every request with the answer to the first. -/
def stale : Surroundings where
  newId n := if n = 0 then "a" else "b"
  transport _ := { answer := .ok emptyMessage }

/-- Its first two ids are different. -/
theorem injOn_stale : Set.InjOn stale.newId (Set.Iio 2) := by
  intro n hn m hm hsame
  rw [Set.mem_Iio] at hn hm
  interval_cases n <;> interval_cases m
  · rfl
  · exact absurd hsame (by decide)
  · exact absurd hsame (by decide)
  · rfl

/-- Two calls at once, the second of which is answered first, and with what belongs to the other. -/
theorem calls_independent_stale :
    let s₀ : Session :=
      { client := { config := .ofChanges default "" "" [], status := Model.absent DaemonStatus,
                    process := none }
        wire := {} }
    let acts : List Act := [.begin (.invoke .getInfo .none), .begin (.invoke .getDifficulty .none),
      .go 0, .go 1, .go 1, .go 0]
    Set.InjOn stale.newId (Set.Iio (live stale acts s₀).2.wire.sent) ∧
      receive (stale.newId 0) (.ok emptyMessage) = .ok (.string "") ∧
      ∃ t, (live stale acts s₀).1[1]? = some t ∧
        t.outcome? = some (.error (.protocol (.idMismatch "b" "a"))) := by
  intro s₀ acts
  have hended : (live stale acts s₀).1[1]? = some ⟨.invoke .getDifficulty .none,
      .done (Call.conclude (.invoke .getDifficulty .none) "b" (.ok emptyMessage))⟩ := by
    simp [acts, live, act, stepAt, step, dispatch, Call.route, Call.catalogued, Method.supported,
      Wire.send, stale, deliver_invoke, s₀]
  have hrequests : (live stale acts s₀).2.wire.requests.map Prod.fst =
      [⟨"getinfo", .none, "a"⟩, ⟨"getdifficulty", .none, "b"⟩] := by
    rfl
  obtain ⟨ts, s, sent, hlive, ⟨hsent, -, hcount, -, -⟩, hcalls⟩ := calls_independent stale s₀ acts
  rw [hlive] at hended hrequests ⊢
  have hboth : sent.map (·.2.request) =
      [⟨"getinfo", .none, "a"⟩, ⟨"getdifficulty", .none, "b"⟩] := hsent.symm.trans hrequests
  have htwo : s.wire.sent = 2 := by
    have hlength := congrArg List.length hboth
    rw [List.length_map] at hlength
    rw [hcount, hlength]
    rfl
  have hdistinct : Set.InjOn stale.newId (Set.Iio s.wire.sent) := htwo ▸ injOn_stale
  obtain ⟨x, hx, hrequest, -, -, hforeign⟩ :=
    (hcalls 1 _ hended).2.1 "getdifficulty" .none rfl _ rfl
  have hid : x.request.id = "b" := by
    have hmem : x.request ∈ sent.map (·.2.request) := List.mem_map_of_mem hx
    rw [hboth, hrequest] at hmem
    rw [hrequest]
    simpa using hmem
  have hnumber : 0 ≠ x.number := by
    intro hzero
    rw [hrequest, ← hzero] at hid
    exact absurd hid (by decide)
  refine ⟨hdistinct, receive_emptyMessage, _, hended, ?_⟩
  have houtcome := hforeign hdistinct 0 (by omega) hnumber emptyMessage _ rfl receive_emptyMessage
  rw [hid] at houtcome
  exact congrArg some houtcome

end Session

end DaemonRpc
