import DaemonRpc.Proofs.CommandLine.Run

/-!
# The orders to stop in one run

A run that has launched a daemon orders it to stop at its end.  That order comes after every call
that has succeeded, whether or not the call was itself an order to stop: a call by name leaves the
client the owner of the process.

* `StopsOnce` is a run that orders its daemon to stop once, and is a success if its call is one.
* `name_eq_stop_iff` says which names give an order to stop, and `Connects.count_stops` that none is
  given before the call.
* `run_stopsOnce_iff` is what a run with a launched daemon does, and exactly when it stops once.
* `stops_twice` is a run that fails although its daemon has stopped as it was told to.
-/

namespace DaemonRpc.CommandLine

open Session

variable {c : Circumstances} {a : Arguments} {env : Surroundings} {s : Session} {name : String}
  {params : Params}

/-- A run that sends its call after the probes of the session, and at most one order to stop in
all.  If the call succeeds, and unless it was that order the closing one does too, then the result
is printed and the run is a success. -/
structure StopsOnce (env : Surroundings) (s : Session) (name : String) (params : Params)
    (o : Outcome) : Prop where
  sent : o.requests = s.wire.requests.map Prod.fst ++ [(sentOver env s.wire name params).request] ∨
    o.requests = s.wire.requests.map Prod.fst ++
      [(sentOver env s.wire name params).request, (closing env s).request]
  once : o.requests.countP (·.method = "stop") ≤ 1
  success : ∀ result, calledOutcome env s name params = .ok result →
    (name = "stop" ∨ ∃ message, farewell env s = .ok message) →
    o.stdout = printed result ∧ o.exit = 0

/-- A name goes out as an order to stop exactly if it stands for that method. -/
theorem name_eq_stop_iff {method : String} {given : Params}
    (hroute : (Call.byName method given).route = .ok (name, params)) :
    name = "stop" ↔ Method.ofName? method = some .stop := by
  simp only [Call.route] at hroute
  split at hroute
  · rename_i m hname
    unfold Call.catalogued at hroute
    split at hroute
    · obtain ⟨rfl, -⟩ := Prod.mk.inj (Except.ok.inj hroute)
      rw [hname, Option.some.injEq]
      exact ⟨fun h => Method.wireName_injective h, fun h => congrArg Method.wireName h⟩
    · exact absurd hroute (by simp)
  · rename_i hnone
    obtain ⟨rfl, -⟩ := Prod.mk.inj (Except.ok.inj hroute)
    rw [hnone]
    refine ⟨fun hstop => ?_, fun h => absurd h (by simp)⟩
    -- the name of the method stands for the method, so it is not left as it is
    have hsome : Method.ofName? method = some .stop := by
      rw [Method.ofName?_eq_some_iff, hstop]
      exact (Method.toLower_wireName .stop).symm
    exact absurd (hnone.symm.trans hsome) (by simp)

/-- Probes are no orders to stop. -/
theorem Connects.count_stops (h : Connects c a env s) (requests : List Request) :
    (s.wire.requests.map Prod.fst ++ requests).countP (·.method = "stop") =
      requests.countP (·.method = "stop") := by
  have hprobes : (s.wire.requests.map Prod.fst).countP (·.method = "stop") = 0 := by
    rw [List.countP_eq_zero]
    intro request hrequest
    obtain ⟨probe, hprobe, rfl⟩ := List.mem_map.1 hrequest
    rw [h.probes.2 probe hprobe]
    decide
  rw [List.countP_append, hprobes, Nat.zero_add]

/-- A run that launches a daemon and gets to a client, for every method and every parameters, and
whatever the daemon answers.

A call by a name that the client refuses is not sent.  A call that fails is the last request, and
the daemon is not told to stop.  After a call that succeeds there is one more order to stop, and the
run is a success if that order is.  So the run stops its daemon once, and is a success if its call
is one, exactly unless the call was an order to stop that has succeeded. -/
theorem run_stopsOnce_iff {words : List String} {binary : String}
    (hwords : Arguments.ofWords c.environment words = .ok a) (hspawn : a.spawn = some binary)
    (h : Connects c a env s) :
    (s.wire.requests ≠ [] ∧ ∀ probe ∈ s.wire.requests, probe.1.method = "getinfo") ∧
    (∀ e, (Call.byName a.method (readParams a.params)).route = .error e →
      (run c words).requests = s.wire.requests.map Prod.fst ∧
        (run c words).stdout = "" ∧ (run c words).exit = failureExit) ∧
    ∀ name params, (Call.byName a.method (readParams a.params)).route = .ok (name, params) →
      (StopsOnce env s name params (run c words) ↔
        ¬ (Method.ofName? a.method = some .stop ∧
          ∃ result, calledOutcome env s name params = .ok result)) ∧
      (∀ e, calledOutcome env s name params = .error e →
        (run c words).requests = s.wire.requests.map Prod.fst ++
            [{ method := name, params, id := env.newId s.wire.sent }] ∧
          (run c words).stdout = "" ∧ (run c words).exit = failureExit) ∧
      ∀ result, calledOutcome env s name params = .ok result →
        (run c words).requests = s.wire.requests.map Prod.fst ++
            [{ method := name, params, id := env.newId s.wire.sent },
              { method := "stop", params := .none, id := env.newId (s.wire.sent + 1) }] ∧
          (run c words).stdout = printed result ∧
          ((run c words).exit = 0 ↔ ∃ message, farewell env s = .ok message) := by
  have hprocess : s.client.process.isSome = true := by
    rw [h.isSome_process, hspawn]
    rfl
  rw [run_of_connects hwords h]
  refine ⟨h.probes, fun e hroute => invoke_of_refused hroute, ?_⟩
  intro name params hroute
  refine ⟨?_, fun e houtcome => invoke_of_error hroute houtcome,
    fun result houtcome => invoke_of_some hroute houtcome hprocess⟩
  rw [← name_eq_stop_iff hroute]
  cases houtcome : calledOutcome env s name params with
  | error e =>
    obtain ⟨hrequests, -⟩ := invoke_of_error hroute houtcome
    refine iff_of_true ⟨Or.inl hrequests, ?_, ?_⟩ (by simp)
    · rw [hrequests, h.count_stops]
      exact List.countP_le_length
    · intro result hresult
      exact absurd (houtcome.symm.trans hresult) (by simp)
  | ok result =>
    obtain ⟨hrequests, hprinted, hexit⟩ := invoke_of_some hroute houtcome hprocess
    have hcount : (invoke env a s).requests.countP (·.method = "stop") =
        if name = "stop" then 2 else 1 := by
      rw [hrequests, h.count_stops]
      by_cases hname : name = "stop"
      · simp [sentOver, closing, hname]
      · simp [sentOver, closing, hname]
    constructor
    · rintro ⟨-, honce, -⟩ ⟨hname, -⟩
      rw [hcount, if_pos hname] at honce
      exact absurd honce (by decide)
    · intro hother
      have hname : name ≠ "stop" := fun hname => hother ⟨hname, result, rfl⟩
      refine ⟨Or.inr hrequests, ?_, ?_⟩
      · rw [hcount, if_neg hname]
      · intro result' hresult hstopped
        obtain rfl := Except.ok.inj (houtcome.symm.trans hresult)
        exact ⟨hprinted, hexit.2 (hstopped.resolve_left hname)⟩

/-- A name that is not in the catalogue, to a launched daemon that answers with empty strings. -/
theorem run_stopsOnce_iff_echo :
    let words := ["-u", "u", "--password", "p", "--spawn", "d", "echo"]
    let c := reachedBy acknowledging
    ∃ a, Arguments.ofWords c.environment words = .ok a ∧ a.spawn = some "d" ∧
      ∃ s, Connects c a acknowledging s ∧
        calledOutcome acknowledging s "echo" .none = .ok (.string "") ∧
        StopsOnce acknowledging s "echo" .none (run c words) := by
  intro words c
  have hwords : Arguments.ofWords c.environment words = .ok (plain (some "d") "echo" []) := rfl
  obtain ⟨s, hconnects, -⟩ := exists_connects_plain acknowledging (fun _ => rfl)
    receive_emptyMessage (some "d") "echo" []
  have hname : Method.ofName? "echo" = none := by
    decide +kernel
  have hroute : (Call.byName "echo" .none).route = .ok ("echo", .none) := by
    rw [Call.route, hname]
  obtain ⟨-, -, hsent⟩ := run_stopsOnce_iff hwords rfl hconnects
  refine ⟨_, hwords, rfl, s, hconnects, receive_emptyMessage, ?_⟩
  apply (hsent "echo" .none hroute).1.2
  rintro ⟨hstop, -⟩
  exact absurd (hname.symm.trans hstop) (by simp)

/-- A daemon that answers its probe and the first order to stop, and is gone then. -/
def departing : Surroundings where
  newId _ := "a"
  transport sent :=
    { answer := if sent.number < 2 then .ok emptyMessage else .error (.io "connection refused") }

/-- A daemon that is launched and told to stop, and does.  It is told once more, and as it is gone
the run is no success, although its result was printed. -/
theorem stops_twice :
    let words := ["-u", "u", "--password", "p", "--spawn", "d", "stop"]
    let c := reachedBy departing
    ∃ a, Arguments.ofWords c.environment words = .ok a ∧ a.spawn = some "d" ∧
      ∃ s, Connects c a departing s ∧ calledOutcome departing s "stop" .none = .ok (.string "") ∧
        (run c words).requests.countP (·.method = "stop") = 2 ∧
        (run c words).stdout = "\"\"\n" ∧ (run c words).exit ≠ 0 ∧
        ¬ StopsOnce departing s "stop" .none (run c words) := by
  intro words c
  have hwords : Arguments.ofWords c.environment words = .ok (plain (some "d") "stop" []) := rfl
  obtain ⟨s, hconnects, hsent⟩ := exists_connects_plain departing (fun _ => rfl)
    receive_emptyMessage (some "d") "stop" []
  have hroute : (Call.byName "stop" .none).route = .ok ("stop", .none) := by
    have hname : Method.ofName? "stop" = some .stop := by
      decide +kernel
    rw [Call.route, hname]
    rfl
  have houtcome : calledOutcome departing s "stop" .none = .ok (.string "") := by
    have hanswer : (departing.transport (sentOver departing s.wire "stop" .none)).answer =
        .ok emptyMessage := by
      simp [departing, sentOver, hsent]
    rw [calledOutcome, hanswer]
    exact receive_emptyMessage
  have hfarewell : farewell departing s = .error (.transport (.io "connection refused")) := by
    have hanswer : (departing.transport (closing departing s)).answer =
        .error (.io "connection refused") := by
      simp [departing, closing, hsent]
    rw [farewell, hanswer]
    rfl
  obtain ⟨hrequests, hprinted, hexit⟩ :=
    invoke_of_some (a := plain (some "d") "stop" []) hroute houtcome hconnects.isSome_process
  have hcount : (run c words).requests.countP (·.method = "stop") = 2 := by
    rw [run_of_connects hwords hconnects, hrequests, hconnects.count_stops]
    rfl
  rw [hfarewell] at hexit
  refine ⟨_, hwords, rfl, s, hconnects, houtcome, hcount, ?_, ?_, ?_⟩
  · rw [run_of_connects hwords hconnects, hprinted]
    rfl
  · rw [run_of_connects hwords hconnects, ne_eq, hexit]
    simp
  · intro honce
    have htwo := honce.once
    rw [hcount] at htwo
    exact absurd htwo (by decide)

end DaemonRpc.CommandLine
