import DaemonRpc.CommandLine.Run
import DaemonRpc.Proofs.Client.ByName
import DaemonRpc.Proofs.Client.Withheld

/-!
# What a run of the command line sends and shows

A run connects, makes one call by name, and stops the daemon if it has launched it.

* `Connects` is how a run gets to its client.  `execute_of_connects` is what is left of the run
  then, and `Connects.probes` what was sent before.
* `perform_byName` is the one call, and `conclude_of_none` and `conclude_of_some` are the end of a
  run whose call has succeeded.
* `invoke_of_refused`, `invoke_of_error`, `invoke_of_none` and `invoke_of_some` are the four ways in
  which a run can go that has got to its client.
-/

namespace DaemonRpc

namespace Session

variable {env : Surroundings} {s : Session}

/-- Dropping a client sends nothing. -/
theorem requests_drop (s : Session) : s.drop.wire.requests = s.wire.requests := by
  unfold drop
  split
  · rfl
  · simp [onWire, disown, log, Wire.log, Wire.requests_note, Event.sent?]

/-- The wire of a call by name that is alone and has come to its end: its request was sent, and the
answer to it was taken. -/
def answeredWire (env : Surroundings) (w : Wire) (method : String) (params : Params) : Wire :=
  let (_, exchange, after) := w.send env method params
  (after.advance (after.clock + exchange.delay)).take exchange.answer

/-- A call by name that is alone ends with what the answer to its request means, and leaves the
client as it is. -/
theorem perform_byName {name method : String} {params params' : Params}
    (hroute : (Call.byName name params).route = .ok (method, params')) :
    perform env (.byName name params) s =
      (⟨.byName name params, .done (receive (env.newId s.wire.sent)
        (env.transport (sentOver env s.wire method params')).answer)⟩,
        { s with wire := answeredWire env s.wire method params' }) := by
  have hwire : (perform env (.byName name params) s).2 =
      { s with wire := answeredWire env s.wire method params' } := by
    obtain ⟨request, exchange, after, hsend, -⟩ := Wire.quiet_send env s.wire method params'
    simp only [perform, step, dispatch, hroute, deliver, onWire, answeredWire, hsend]
    cases (Call.byName name params).conclude request.id exchange.answer with
    | error err => rfl
    | ok result => rfl
  rw [← hwire, ← Call.conclude_byName name params, ← perform_of_route hroute]

/-- What a call by name leaves on the wire: its request comes last. -/
theorem answeredWire_spec (env : Surroundings) (w : Wire) (method : String) (params : Params) :
    (answeredWire env w method params).requests.map Prod.fst =
        w.requests.map Prod.fst ++ [{ method, params, id := env.newId w.sent }] ∧
      (answeredWire env w method params).sent = w.sent + 1 ∧
      (answeredWire env w method params).previous = some (env.newId w.sent) := by
  obtain ⟨request, exchange, after, hsend, hrequest, -, hafter⟩ :=
    Wire.quiet_send env w method params
  obtain ⟨-, -, -, hsent, hprevious⟩ := Wire.fields_of_quiet hafter
  have hrequests := Wire.requests_send env w method params
  rw [hsend] at hrequests
  obtain ⟨late, hlate⟩ : ∃ late, late = after.advance (after.clock + exchange.delay) := ⟨_, rfl⟩
  have htake := Wire.quiet_take late exchange.answer
  obtain ⟨-, -, -, hsent', hprevious'⟩ := Wire.fields_of_quiet htake
  have hwire : answeredWire env w method params = late.take exchange.answer := by
    rw [answeredWire, hsend, hlate]
  rw [hwire]
  refine ⟨?_, ?_, ?_⟩
  · rw [← Wire.requests_quiet, htake, Wire.requests_quiet, hlate]
    show after.requests.map Prod.fst = _
    rw [hrequests, List.map_append]
    rfl
  · rw [hsent', hlate]
    exact hsent
  · have hid : request.id = env.newId w.sent := by rw [hrequest]
    rw [hprevious', hlate, ← hid]
    exact hprevious

/-- A stop that is alone ends with what the answer to its request means, and its request comes
last. -/
theorem perform_stop (env : Surroundings) (s : Session) :
    ∃ after, perform env .stop s =
        (⟨.stop, .done (Call.stop.conclude (env.newId s.wire.sent)
          (env.transport (sentOver env s.wire "stop" .none)).answer)⟩, after) ∧
      after.wire.requests.map Prod.fst = s.wire.requests.map Prod.fst ++
        [{ method := "stop", params := .none, id := env.newId s.wire.sent }] := by
  have hroute : Call.stop.route = .ok ("stop", .none) := rfl
  refine ⟨(perform env .stop s).2, ?_, requests_run_of_route hroute env 2 s⟩
  rw [← perform_of_route hroute]

end Session

namespace CommandLine

open Session

variable {c : Circumstances} {a : Arguments} {env : Surroundings} {s : Session}

/-! ## The way to a client -/

/-- The process that a run launches, if it is to launch one. -/
def launched (c : Circumstances) (a : Arguments) : Except Error (Option ProcessHandle) :=
  match a.spawn with
  | none => .ok none
  | some binary => (c.launch (a.launchConfig binary)).map some

/-- How a run gets to a client: what is to be launched is launched, there is a transport, and the
establishment connects. -/
inductive Connects (c : Circumstances) (a : Arguments) : Surroundings → Session → Prop where
  | intro {config : ConnectionConfig} {process : Option ProcessHandle} {env : Surroundings}
      {client : Client} {wire : Wire} (connection : a.connection c.international = .ok config)
      (launched : launched c a = .ok process) (transport : c.transport config = .ok env)
      (connected : Establisher.establish { config, process } env {} = (.connected client, wire)) :
      Connects c a env { client, wire }

/-- A run whose first probe succeeds gets to a client, if nobody cancels and all delays can be
added. -/
theorem Connects.exists_of_ok {config : ConnectionConfig} {process : Option ProcessHandle}
    {v : Json} (hconnection : a.connection c.international = .ok config)
    (hlaunched : launched c a = .ok process)
    (htransport : c.transport config = .ok env) (henv : env.NeverCancels)
    (hfits : (BackoffSchedule.ofConfig config).Representable)
    (hlimit : 0 < (BackoffSchedule.ofConfig config).maxAttempts.toNat)
    (hanswer : ({ config, process } : Establisher).outcomeAt env {} 0 = .ok v) :
    ∃ s, Connects c a env s ∧ s.wire.sent = 1 := by
  obtain ⟨after, hrun, -, hsent⟩ := Establishment.establish_of_ok (e := { config, process }) henv
    ⟨rfl, rfl⟩ hfits hlimit (fun k hk => absurd hk (Nat.not_lt_zero k)) hanswer
  exact ⟨_, .intro hconnection hlaunched htransport hrun, hsent⟩

/-- A run that gets to a client goes on with its call. -/
theorem execute_of_connects (h : Connects c a env s) : execute c a = invoke env a s := by
  obtain ⟨connection, hlaunched, transport, connected⟩ := h
  unfold launched at hlaunched
  rw [execute, connection]
  cases hspawn : a.spawn with
  | none =>
    rw [hspawn] at hlaunched
    obtain rfl := Except.ok.inj hlaunched
    simp only [connect, transport, connected]
  | some binary =>
    rw [hspawn] at hlaunched
    obtain ⟨p, hp, rfl⟩ := map_eq_ok_iff.1 hlaunched
    simp only [hp, connect, transport, connected]

theorem run_of_connects {words : List String}
    (hwords : Arguments.ofWords c.environment words = .ok a) (h : Connects c a env s) :
    run c words = invoke env a s := by
  rw [run, hwords]
  exact execute_of_connects h

/-- The client owns a process exactly when the run has launched one. -/
theorem Connects.isSome_process (h : Connects c a env s) :
    s.client.process.isSome = a.spawn.isSome := by
  obtain ⟨-, hlaunched, -, connected⟩ := h
  rename_i config process client wire
  obtain ⟨ending, after, v, hrun, hcourse, -⟩ :=
    Establishment.run_course { config, process } env {}
  obtain ⟨rfl, rfl⟩ := Prod.mk.inj (hrun.symm.trans connected)
  have howned : client.process = process := hcourse.process_eq
  show client.process.isSome = _
  rw [howned]
  unfold launched at hlaunched
  cases hspawn : a.spawn with
  | none =>
    rw [hspawn] at hlaunched
    obtain rfl := Except.ok.inj hlaunched
    rfl
  | some binary =>
    rw [hspawn] at hlaunched
    obtain ⟨p, -, rfl⟩ := map_eq_ok_iff.1 hlaunched
    rfl

/-- Before its call a run has sent probes, and at least one. -/
theorem Connects.probes (h : Connects c a env s) :
    s.wire.requests ≠ [] ∧ ∀ probe ∈ s.wire.requests, probe.1.method = "getinfo" := by
  obtain ⟨-, -, -, connected⟩ := h
  rename_i config process client wire
  obtain ⟨ending, after, n, hrun, hrequests, hsome⟩ :=
    Establishment.exists_probes { config, process } env {}
  obtain ⟨rfl, rfl⟩ := Prod.mk.inj (hrun.symm.trans connected)
  have hpositive := hsome ⟨rfl, rfl⟩
  have hprobes : after.requests = Establisher.probes { config, process } env {} n := hrequests
  show after.requests ≠ [] ∧ ∀ probe ∈ after.requests, probe.1.method = "getinfo"
  rw [hprobes]
  refine ⟨?_, fun probe hprobe => Establishment.method_of_mem_probes hprobe⟩
  intro hnone
  have hlength := congrArg List.length hnone
  rw [Establisher.probes, List.length_map, List.length_range] at hlength
  exact absurd hlength (Nat.ne_of_gt hpositive)

/-! ## The end of a run -/

/-- The requests of a run, in their order. -/
def Outcome.requests (o : Outcome) : List Request := (o.events.filterMap Event.sent?).map Prod.fst

theorem requests_fail (f : Failure) (s : Session) (stdout : String) :
    (Outcome.fail f s.drop.wire stdout).requests = s.wire.requests.map Prod.fst := by
  rw [← requests_drop]
  rfl

/-- A client without a process just ends. -/
theorem conclude_of_none (env : Surroundings) (stdout : String)
    (hprocess : s.client.process.isSome = false) :
    (conclude env stdout s).requests = s.wire.requests.map Prod.fst ∧
      (conclude env stdout s).stdout = stdout ∧ (conclude env stdout s).exit = 0 := by
  rw [← requests_drop, conclude, hprocess]
  exact ⟨rfl, rfl, rfl⟩

/-- A client with a process stops the daemon, and the run succeeds if the stop does.  What was
printed stays. -/
theorem conclude_of_some (env : Surroundings) (stdout : String)
    (hprocess : s.client.process.isSome = true) :
    (conclude env stdout s).requests = s.wire.requests.map Prod.fst ++
        [{ method := "stop", params := .none, id := env.newId s.wire.sent }] ∧
      (conclude env stdout s).stdout = stdout ∧
      ((conclude env stdout s).exit = 0 ↔ ∃ message, Call.stop.conclude (env.newId s.wire.sent)
        (env.transport (sentOver env s.wire "stop" .none)).answer = .ok message) := by
  obtain ⟨after, hperform, hrequests⟩ := perform_stop env s
  rw [← hrequests, conclude, if_pos hprocess, hperform]
  cases hstop : Call.stop.conclude (env.newId s.wire.sent)
      (env.transport (sentOver env s.wire "stop" .none)).answer with
  | error e =>
    refine ⟨requests_fail _ after stdout, rfl, ?_⟩
    simp [Task.written?, Task.outcome?, Except.map, Outcome.fail, failureExit]
  | ok message =>
    refine ⟨?_, rfl, by simp [Task.written?, Task.outcome?, Except.map]⟩
    rw [← requests_drop]
    rfl

/-! ## The call of a run -/

/-- The outcome of the call of a run that sends the given method. -/
def calledOutcome (env : Surroundings) (s : Session) (name : String) (params : Params) :
    Except Error Json :=
  receive (env.newId s.wire.sent) (env.transport (sentOver env s.wire name params)).answer

/-- The order to stop that comes after the call of a run, as the transport sees it. -/
def closing (env : Surroundings) (s : Session) : Sent where
  number := s.wire.sent + 1
  previous := some (env.newId s.wire.sent)
  request := { method := "stop", params := .none, id := env.newId (s.wire.sent + 1) }

/-- What the answer to the last order to stop means. -/
def farewell (env : Surroundings) (s : Session) : Except Error String :=
  Call.stop.conclude (closing env s).request.id (env.transport (closing env s)).answer

/-- A run whose call goes nowhere sends nothing more and fails. -/
theorem invoke_of_refused {e : Error}
    (hroute : (Call.byName a.method (readParams a.params)).route = .error e) :
    (invoke env a s).requests = s.wire.requests.map Prod.fst ∧
      (invoke env a s).stdout = "" ∧ (invoke env a s).exit = failureExit := by
  have hrun : invoke env a s = .fail (.ofCall a.method e) s.drop.wire "" := by
    simp only [invoke, perform, step, dispatch, hroute]
    rfl
  rw [hrun, requests_fail]
  exact ⟨rfl, rfl, rfl⟩

section Sent

variable {name : String} {params : Params}
  (hroute : (Call.byName a.method (readParams a.params)).route = .ok (name, params))

include hroute

/-- A run whose call fails prints nothing, and sends nothing more. -/
theorem invoke_of_error {e : Error} (houtcome : calledOutcome env s name params = .error e) :
    (invoke env a s).requests =
        s.wire.requests.map Prod.fst ++ [(sentOver env s.wire name params).request] ∧
      (invoke env a s).stdout = "" ∧ (invoke env a s).exit = failureExit := by
  rw [calledOutcome] at houtcome
  have hrun : invoke env a s = .fail (.ofCall a.method e)
      (drop { s with wire := answeredWire env s.wire name params }).wire "" := by
    simp only [invoke, perform_byName hroute, houtcome]
    rfl
  rw [hrun, requests_fail]
  exact ⟨(answeredWire_spec env s.wire name params).1, rfl, rfl⟩

/-- A run whose call succeeds prints the result and comes to its end. -/
theorem invoke_of_ok {result : Json} (houtcome : calledOutcome env s name params = .ok result) :
    invoke env a s = conclude env (printed result)
      { s with wire := answeredWire env s.wire name params } := by
  rw [calledOutcome] at houtcome
  simp only [invoke, perform_byName hroute, houtcome]
  rfl

/-- If it has launched nothing, that is all. -/
theorem invoke_of_none {result : Json} (houtcome : calledOutcome env s name params = .ok result)
    (hprocess : s.client.process.isSome = false) :
    (invoke env a s).requests =
        s.wire.requests.map Prod.fst ++ [(sentOver env s.wire name params).request] ∧
      (invoke env a s).stdout = printed result ∧ (invoke env a s).exit = 0 := by
  obtain ⟨hrequests, -⟩ := answeredWire_spec env s.wire name params
  obtain ⟨hconclude, hend⟩ := conclude_of_none env (printed result)
    (s := { s with wire := answeredWire env s.wire name params }) hprocess
  rw [invoke_of_ok hroute houtcome, hconclude]
  exact ⟨hrequests, hend⟩

/-- If it has launched a daemon, it orders that to stop, whatever the call was. -/
theorem invoke_of_some {result : Json} (houtcome : calledOutcome env s name params = .ok result)
    (hprocess : s.client.process.isSome = true) :
    (invoke env a s).requests = s.wire.requests.map Prod.fst ++
        [(sentOver env s.wire name params).request, (closing env s).request] ∧
      (invoke env a s).stdout = printed result ∧
      ((invoke env a s).exit = 0 ↔ ∃ message, farewell env s = .ok message) := by
  obtain ⟨hrequests, hsent, hprevious⟩ := answeredWire_spec env s.wire name params
  have hclosing : sentOver env (answeredWire env s.wire name params) "stop" .none =
      closing env s := by
    rw [sentOver, hsent, hprevious]
    rfl
  obtain ⟨hconclude, hprinted, hexit⟩ := conclude_of_some env (printed result)
    (s := { s with wire := answeredWire env s.wire name params }) hprocess
  rw [invoke_of_ok hroute houtcome]
  refine ⟨?_, hprinted, ?_⟩
  · rw [hconclude, hrequests, hsent, List.append_assoc]
    rfl
  · rw [hexit, hclosing, hsent]
    rfl

end Sent

/-! ## Plain runs -/

/-- Arguments with nothing set but what must be, and perhaps a program to launch. -/
def plain (spawn : Option String) (method : String) (params : List String) : Arguments where
  host := defaultHost
  port := none
  user := "u"
  password := "p"
  timeoutMs := 1000
  attempts := defaultAttempts
  backoffMs := none
  testnet := false
  spawn := spawn
  debug := false
  method := method
  params := params

/-- Circumstances with nothing in the environment, and one transport to every daemon. -/
def reachedBy (env : Surroundings) : Circumstances where
  environment _ := none
  international := .empty
  launch _ := .ok { exits := .ok true, terminates := .ok () }
  transport _ := .ok env

/-- A run with plain arguments gets to its client with its first probe, if that succeeds. -/
theorem exists_connects_plain (env : Surroundings) (henv : env.NeverCancels) {v : Json}
    (hanswer : receive (env.newId 0)
      (env.transport (sentOver env {} "getinfo" .none)).answer = .ok v)
    (spawn : Option String) (method : String) (params : List String) :
    ∃ s, Connects (reachedBy env) (plain spawn method params) env s ∧ s.wire.sent = 1 := by
  let endpoint : Endpoint := { host := .ipv4 ⟨0x7f000001⟩, port := some 8332 }
  let config : ConnectionConfig := { endpoint, account := "u", secret := "p" }
  have hendpoint : Endpoint.ofHost .empty "127.0.0.1" 8332 = .ok endpoint := by
    decide +kernel
  have hconnection : (plain spawn method params).connection (reachedBy env).international =
      .ok ((config.withTimeout (.ofMillis 1000)).withMaxAttempts 5) := by
    -- a launched daemon is on the machine that is the default
    have hhost : (if (plain spawn method params).spawn.isSome then defaultHost
        else (plain spawn method params).host) = "127.0.0.1" := ite_self _
    simp only [Arguments.connection, hhost]
    show (ConnectionConfig.ofHost .empty "127.0.0.1" 8332 "u" "p" >>= _) = _
    rw [ConnectionConfig.ofHost, hendpoint]
    rfl
  obtain ⟨process, hlaunched⟩ :
      ∃ process, launched (reachedBy env) (plain spawn method params) = .ok process := by
    cases spawn with
    | none => exact ⟨_, rfl⟩
    | some binary => exact ⟨_, rfl⟩
  apply Connects.exists_of_ok hconnection hlaunched rfl henv _ (by decide) hanswer
  unfold BackoffSchedule.Representable
  decide

end CommandLine

end DaemonRpc
