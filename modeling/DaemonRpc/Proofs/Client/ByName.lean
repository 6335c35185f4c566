import DaemonRpc.Proofs.Client.Interleaving
import DaemonRpc.Proofs.Rpc.Method

/-!
# Calls by name

A caller may name the method of a call.  A name in the catalogue counts as its method, in any case
of letters, and any other name is sent as it is.

* `ofName?_ascii` keeps names out of the catalogue that only look like one of it.
* `run` takes a number of steps of one call.  A call that has begun sends nothing more, however many
  steps it takes: `traffic_run`.
* `SentOnce` is the whole course of a call by name that goes out, and `sentOnce_of_route` shows that
  every such call takes it.
* `byName_routed` says for every name what goes out, and what comes of it.
-/

namespace DaemonRpc

/-- A character whose lower case is a small letter is ASCII. -/
theorem toNat_lt_of_isLower_toLower {c : Char} (h : c.toLower.isLower = true) : c.toNat < 0x80 := by
  unfold Char.toLower at h
  split at h
  · rename_i hcapital
    have hle : c.toNat ≤ 'Z'.toNat := UInt32.le_iff_toNat_le.1 hcapital.2
    exact Nat.lt_of_le_of_lt hle (by decide)
  · have hle : c.toNat ≤ 'z'.toNat := by
      simp only [Char.isLower, Bool.and_eq_true, decide_eq_true_eq] at h
      exact UInt32.le_iff_toNat_le.1 h.2
    exact Nat.lt_of_le_of_lt hle (by decide)

namespace Method

/-- The names are made of small letters. -/
theorem isLower_wireName (m : Method) : m.wireName.toList.all Char.isLower = true := by
  cases m <;> rfl

/-- A name that is found has no characters beyond ASCII. -/
theorem ofName?_ascii {name : String} {m : Method} (h : ofName? name = some m) :
    ∀ c ∈ name.toList, c.toNat < 0x80 := by
  intro c hc
  have hname : m.wireName.toList = name.toList.map Char.toLower := by
    rw [ofName?_eq_some_iff.1 h, toList_toLower]
  have hlower : c.toLower ∈ m.wireName.toList := by
    rw [hname]
    exact List.mem_map_of_mem hc
  exact toNat_lt_of_isLower_toLower (List.all_eq_true.1 m.isLower_wireName _ hlower)

end Method

/-- A call by name ends with what the answer to its request means. -/
theorem Call.conclude_byName (name : String) (params : Params) (id : String)
    (answer : Except TransportError Bytes) :
    (Call.byName name params).conclude id answer = receive id answer := by
  rw [conclude]
  cases receive id answer with
  | ok _ => rfl
  | error _ => rfl

namespace Session

variable {env : Surroundings} {s : Session} {t : Task}

/-! ## Any number of steps -/

/-- A number of steps of one call. -/
def run (env : Surroundings) : Nat → Task → Session → Task × Session
  | 0, t, s => (t, s)
  | n + 1, t, s => run env n (step env t s).1 (step env t s).2

theorem run_add (env : Surroundings) (m n : Nat) (t : Task) (s : Session) :
    run env (m + n) t s = run env n (run env m t s).1 (run env m t s).2 := by
  induction m generalizing t s with
  | zero => rw [Nat.zero_add, run]
  | succ m ih => rw [Nat.succ_add, run, ih, run]

/-- A call that has ended changes nothing any more. -/
theorem run_done (env : Surroundings) (n : Nat) {c : Call} (outcome : Except Error c.Result)
    (s : Session) : run env n ⟨c, .done outcome⟩ s = (⟨c, .done outcome⟩, s) := by
  induction n with
  | zero => rfl
  | succ n ih =>
    rw [run]
    exact ih

/-- A call that has begun sends nothing in a step. -/
theorem Stride.silent {w : Wire} {new : List Sent} {t' : Task} (h : Stride env w t new t')
    (hbegun : stepsLeft t < 3) : new = [] := by
  cases h with
  | sends _ => exact absurd hbegun (by simp [stepsLeft])
  | refuses _ => rfl
  | receives _ => rfl
  | reaps => rfl
  | rests => rfl

/-- A call that has begun sends nothing, however many steps it takes. -/
theorem traffic_run (env : Surroundings) (n : Nat) (s : Session) (hbegun : stepsLeft t < 3) :
    Traffic s.wire [] (run env n t s).2.wire := by
  induction n generalizing t s with
  | zero => exact .refl s.wire
  | succ n ih =>
    obtain ⟨new, hstride, htraffic⟩ := step_stride env t s
    obtain rfl := hstride.silent hbegun
    have hnext := hstride.stepsLeft_le.2
    exact htraffic.trans (ih _ (by omega))

/-- A call that goes out sends one request with its first step, and nothing with any other. -/
theorem requests_run_of_route {c : Call} {method : String} {params : Params}
    (hroute : c.route = .ok (method, params)) (env : Surroundings) (n : Nat) (s : Session) :
    (run env (n + 1) { call := c } s).2.wire.requests.map Prod.fst =
      s.wire.requests.map Prod.fst ++ [{ method, params, id := env.newId s.wire.sent }] := by
  obtain ⟨new, hstride, htraffic⟩ := step_stride env { call := c } s
  obtain ⟨t', ht'⟩ : ∃ t', (step env { call := c } s).1 = t' := ⟨_, rfl⟩
  rw [ht'] at hstride
  rw [run, ht']
  cases hstride with
  | refuses route => exact absurd (route.symm.trans hroute) (by simp)
  | sends route =>
    obtain ⟨rfl, rfl⟩ := Prod.mk.inj (Except.ok.inj (route.symm.trans hroute))
    exact (htraffic.trans (traffic_run env n _ (by simp [stepsLeft]))).requests

/-- A call that goes out has ended after three steps. -/
theorem run_of_route {c : Call} {method : String} {params : Params}
    (hroute : c.route = .ok (method, params)) (env : Surroundings) (n : Nat) (s : Session) :
    (run env (n + 3) { call := c } s).1 = ⟨c, .done (c.conclude (env.newId s.wire.sent)
      (env.transport (sentOver env s.wire method params)).answer)⟩ := by
  have hperform : (run env 3 { call := c } s).1 = (perform env c s).1 := rfl
  rw [Nat.add_comm, run_add, hperform, perform_of_route hroute, run_done]

/-- A call that goes nowhere has ended after one step, which changes nothing. -/
theorem run_of_refused {c : Call} {err : Error} (hroute : c.route = .error err)
    (env : Surroundings) (n : Nat) (s : Session) :
    run env (n + 1) { call := c } s = (⟨c, .done (.error err)⟩, s) := by
  have hstep : step env { call := c } s = (⟨c, .done (.error err)⟩, s) := by
    simp only [step, dispatch, hroute]
  rw [run, hstep, run_done]

/-! ## Calls by name -/

/-- The course of a call by name, whatever the transport does with it: one request goes out with the
first step, under the given method, and none with any other.  It ends with what the answer to that
request means, which may be read as a type of its own. -/
structure SentOnce (env : Surroundings) (s : Session) (name : String) (params : Params)
    (method : String) : Prop where
  request : ∀ n, (run env (n + 1) { call := .byName name params } s).2.wire.requests.map Prod.fst =
    s.wire.requests.map Prod.fst ++ [{ method, params, id := env.newId s.wire.sent }]
  outcome : ∀ n, (run env (n + 3) { call := .byName name params } s).1 =
    ⟨.byName name params, .done (receive (env.newId s.wire.sent)
      (env.transport (sentOver env s.wire method params)).answer)⟩
  shape : ∀ (α : Type) [Shaped α] (n : Nat),
    (run env (n + 3) { call := .byName name params } s).1.readAs? α name =
      some ((receive (env.newId s.wire.sent)
        (env.transport (sentOver env s.wire method params)).answer).bind fun v =>
          (decodeResult α name v).mapError .protocol)

/-- A call by name that goes out does so once. -/
theorem sentOnce_of_route {name method : String} {params : Params}
    (hroute : (Call.byName name params).route = .ok (method, params)) (env : Surroundings)
    (s : Session) : SentOnce env s name params method := by
  have houtcome : ∀ n, (run env (n + 3) { call := .byName name params } s).1 =
      ⟨.byName name params, .done (receive (env.newId s.wire.sent)
        (env.transport (sentOver env s.wire method params)).answer)⟩ := by
    intro n
    rw [run_of_route hroute, Call.conclude_byName]
  refine ⟨fun n => requests_run_of_route hroute env n s, houtcome, ?_⟩
  intro α _ n
  rw [houtcome]
  cases receive (env.newId s.wire.sent)
    (env.transport (sentOver env s.wire method params)).answer with
  | ok v => rfl
  | error err => rfl

/-- Calls by name, for every name, whatever the transport does.  A name stands for the one method
whose own name it is but for capitals, and then it has no characters beyond ASCII.  If that method
is not supported nothing goes out and nothing changes.  If it is, its own name goes out, and a name
that stands for no method goes out as it is: in both cases with the given parameters, and once. -/
theorem byName_routed (env : Surroundings) (s : Session) (name : String) (params : Params) :
    (∀ m, Method.ofName? name = some m ↔ m.wireName = name.toLower) ∧
    (∀ m, Method.ofName? name = some m → ∀ c ∈ name.toList, c.toNat < 0x80) ∧
    (∀ m, Method.ofName? name = some m → m.supported = false → ∀ n,
      run env (n + 1) { call := .byName name params } s =
        (⟨.byName name params, .done (.error (.unsupported m))⟩, s)) ∧
    (∀ m, Method.ofName? name = some m → m.supported = true →
      SentOnce env s name params m.wireName) ∧
    (Method.ofName? name = none → SentOnce env s name params name) := by
  refine ⟨fun m => Method.ofName?_eq_some_iff, fun m => Method.ofName?_ascii, ?_, ?_, ?_⟩
  · intro m hname hsupported n
    apply run_of_refused
    simp [Call.route, hname, Call.catalogued, hsupported]
  · intro m hname hsupported
    apply sentOnce_of_route
    simp [Call.route, hname, Call.catalogued, hsupported]
  · intro hname
    apply sentOnce_of_route
    simp [Call.route, hname]

/-- A name with capitals, one of a method that is not supported, and one of a newer daemon. -/
theorem byName_routed_capitals :
    let s : Session :=
      { client := { config := .ofChanges default "" "" [], status := Model.absent DaemonStatus,
                    process := none }
        wire := {} }
    (Method.ofName? "GetBlockCount" = some .getBlockCount ∧ Method.getBlockCount.supported = true ∧
      (run stale 7 { call := .byName "GetBlockCount" .none } s).2.wire.requests.map Prod.fst =
        [{ method := "getblockcount", params := .none, id := "a" }]) ∧
    (Method.ofName? "DumpPrivKey" = some .dumpPrivKey ∧ Method.dumpPrivKey.supported = false ∧
      run stale 7 { call := .byName "DumpPrivKey" .none } s =
        (⟨.byName "DumpPrivKey" .none, .done (.error (.unsupported .dumpPrivKey))⟩, s)) ∧
    (Method.ofName? "GetNetworkInfo" = none ∧
      (run stale 7 { call := .byName "GetNetworkInfo" .none } s).2.wire.requests.map Prod.fst =
        [{ method := "GetNetworkInfo", params := .none, id := "a" }]) := by
  intro s
  have hcount : Method.ofName? "GetBlockCount" = some .getBlockCount := by decide +kernel
  have hkey : Method.ofName? "DumpPrivKey" = some .dumpPrivKey := by decide +kernel
  have hnetwork : Method.ofName? "GetNetworkInfo" = none := by decide +kernel
  obtain ⟨-, -, -, hsupported, -⟩ := byName_routed stale s "GetBlockCount" .none
  obtain ⟨-, -, hrefused, -, -⟩ := byName_routed stale s "DumpPrivKey" .none
  obtain ⟨-, -, -, -, hunknown⟩ := byName_routed stale s "GetNetworkInfo" .none
  exact ⟨⟨hcount, rfl, (hsupported _ hcount rfl).request 6⟩, ⟨hkey, rfl, hrefused _ hkey rfl 6⟩,
    ⟨hnetwork, (hunknown hnetwork).request 6⟩⟩

end Session

end DaemonRpc
