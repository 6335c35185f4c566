import DaemonRpc.Proofs.Client.Interleaving
import DaemonRpc.Proofs.Rpc.Method

/-!
# Which methods reach the daemon

A call of a method that is not supported ends before anything is sent.  The probe of an
establishment is not a call, and nothing is asked about its method: whatever method the caller
chose is sent.

* `Establishment.exists_probes` is what an establishment sends.
* `Session.not_withheld_of_ledger` is what calls send, in any order of their steps.
* `Session.sends_withheld_iff` says for every request of a whole session whether its method is one
  that is not supported.  `Session.sends_withheld_probe` is an establishment that sends one.
-/

namespace DaemonRpc

namespace Establishment

open Establisher

variable {e : Establisher} {env : Surroundings} {w : Wire}

/-- Up to its ending an establishment has sent the probes of its first attempts, and at least one
if the caller has not cancelled and is not going to. -/
theorem Course.exists_probes {ending : Ending} {v : Wire} (h : Course e env w ending v) :
    ∃ n, v.requests = w.requests ++ e.probes env w n ∧ (w.Uncancelled → 0 < n) := by
  cases h with
  | @concluded i _ _ _ _ => exact ⟨i + 1, requests_wireAt e env w (i + 1), fun _ => Nat.succ_pos i⟩
  | @cutWaiting i time _ cut =>
    refine ⟨i, by simp, fun hw => ?_⟩
    apply Nat.pos_of_ne_zero
    rintro rfl
    -- before the first probe only the caller can have cut the wait off
    refine Wire.not_cutAt ?_ ?_ cut
    · exact hw.cancelled
    · exact hw.cancelAt
  | @cutAsking i _ _ _ _ => exact ⟨i + 1, by simp [askedWire], fun _ => Nat.succ_pos i⟩
  | @overflow i _ beyond =>
    refine ⟨i, by simp, fun _ => ?_⟩
    apply Nat.pos_of_ne_zero
    rintro rfl
    -- the first delay is the step, which can be represented
    have hstep := Duration.toNanos_le_maximum (BackoffSchedule.ofConfig e.config).step
    rw [BackoffSchedule.nanosUpTo_succ, BackoffSchedule.nanosUpTo_zero] at beyond
    omega

/-- The requests of an establishment are probes. -/
theorem exists_probes (e : Establisher) (env : Surroundings) (w : Wire) :
    ∃ ending after n, e.establish env w = (ending, after) ∧
      after.requests = w.requests ++ e.probes env w n ∧ (w.Uncancelled → 0 < n) := by
  obtain ⟨ending, after, v, hrun, hcourse, hquiet⟩ := run_course e env w
  obtain ⟨n, hprobes, hsome⟩ := hcourse.exists_probes
  refine ⟨ending, after, n, hrun, ?_, hsome⟩
  rw [(views_of_leave hquiet).1, hprobes]

/-- The method of a probe is the one that was chosen. -/
theorem method_of_mem_probes {n : Nat} {probe : Request × Nat} (h : probe ∈ e.probes env w n) :
    probe.1.method = e.probe.wireName := by
  obtain ⟨i, -, rfl⟩ := List.mem_map.1 h
  rfl

end Establishment

namespace Session

variable {env : Surroundings} {before : Wire} {sent : List (Nat × Sent)} {ts : List Task}
  {s : Session}

/-- No call sends a method that is not supported. -/
theorem not_withheld_of_ledger (h : Ledger env before sent ts s) {x : Nat × Sent} (hx : x ∈ sent) :
    ¬ Method.Withheld x.2.request.method := by
  obtain ⟨t, -, hroute⟩ := h.route_of_mem hx
  exact Call.not_withheld_of_route hroute

/-- What is reaped at the end of a client sends nothing. -/
theorem traffic_finishReaping (env : Surroundings) (ts : List Task) (s : Session) :
    Traffic s.wire [] (finishReaping env ts s).wire := by
  induction ts generalizing s with
  | nil => exact .refl s.wire
  | cons t ts ih =>
    have hturn : Traffic s.wire [] (afterTurn env t s).2.wire := by
      unfold afterTurn
      split
      · rename_i hreaping
        obtain ⟨c, progress⟩ := t
        cases progress with
        | reaping p result => exact traffic_reap p s
        | ready => exact absurd hreaping (by simp [Task.isReaping])
        | awaiting id due answer => exact absurd hreaping (by simp [Task.isReaping])
        | done outcome => exact absurd hreaping (by simp [Task.isReaping])
      · exact .refl s.wire
    exact hturn.trans (ih _)

/-- The end of a client sends nothing. -/
theorem traffic_close (env : Surroundings) (ts : List Task) (s : Session) :
    Traffic s.wire [] (close env ts s).wire := by
  have hreaped := traffic_finishReaping env ts s
  rw [close]
  unfold drop
  split
  · exact hreaped
  · exact ((hreaped.note rfl).note rfl).note rfl

/-- Every request of a whole session, from the establishment to the end of the client.  Without a
transport there is none.  The probes are of the method that was chosen for them, so they are of a
method that is not supported exactly when that one is not; and there is a probe, unless the caller
cancels before it.  No call is of such a method, whatever the caller asks for and in whatever order
the calls take their steps. -/
theorem sends_withheld_iff (e : Establisher) (env : Surroundings) (w : Wire) :
    (∀ cause, (e.refuse cause w).2.requests = w.requests) ∧
    ∃ ending after probes, e.establish env w = (ending, after) ∧
      after.requests = w.requests ++ probes ∧
      (w.cancelled = false → w.cancelAt = none → probes ≠ []) ∧
      (∀ probe ∈ probes, Method.Withheld probe.1.method ↔ e.probe.supported = false) ∧
      ∀ client, ending = .connected client → ∀ acts, ∃ ts s calls,
        live env acts { client, wire := after } = (ts, s) ∧
        s.wire.requests.map Prod.fst = after.requests.map Prod.fst ++ calls ∧
        (∀ call ∈ calls, ¬ Method.Withheld call.method) ∧
        (close env ts s).wire.requests.map Prod.fst = s.wire.requests.map Prod.fst := by
  constructor
  · intro cause
    have hquiet := Establishment.quiet_fail e { wire := w } (.transport cause)
    rw [Establisher.refuse, (Establisher.views_of_leave hquiet).1, Wire.requests_quiet]
  obtain ⟨ending, after, n, hrun, hrequests, hsome⟩ := Establishment.exists_probes e env w
  refine ⟨ending, after, _, hrun, hrequests, ?_, ?_, ?_⟩
  · intro hcancelled hcancelAt hnone
    have hlength := congrArg List.length hnone
    rw [Establisher.probes, List.length_map, List.length_range] at hlength
    exact absurd hlength (Nat.ne_of_gt (hsome ⟨hcancelled, hcancelAt⟩))
  · intro probe hprobe
    rw [Establishment.method_of_mem_probes hprobe, Method.withheld_wireName_iff]
  · intro client _ acts
    obtain ⟨sent, hledger⟩ := exists_ledger env acts { client, wire := after }
    obtain ⟨ts, s, hlive⟩ : ∃ ts s, live env acts { client, wire := after } = (ts, s) :=
      ⟨_, _, rfl⟩
    rw [hlive] at hledger
    refine ⟨ts, s, sent.map (·.2.request), hlive, ?_, ?_, ?_⟩
    · rw [hledger.traffic.requests, List.map_map]
      rfl
    · intro call hcall
      obtain ⟨x, hx, rfl⟩ := List.mem_map.1 hcall
      exact not_withheld_of_ledger hledger hx
    · rw [(traffic_close env ts s).requests]
      exact List.append_nil _

/-- An establishment whose probe is a payment: it is sent. -/
theorem sends_withheld_probe :
    let e : Establisher := { config := .ofChanges default "" "" [], probe := .sendToAddress }
    e.probe.supported = false ∧
      ∃ request time, (request, time) ∈ (e.establish acknowledging {}).2.requests ∧
        request.method = "sendtoaddress" ∧ Method.Withheld request.method := by
  intro e
  obtain ⟨ending, after, n, hrun, hrequests, hsome⟩ :=
    Establishment.exists_probes e acknowledging {}
  have hfirst : (e.probeAt acknowledging {} 0, e.askedAt acknowledging {} 0) ∈ after.requests := by
    rw [hrequests, List.mem_append]
    right
    exact List.mem_map_of_mem (List.mem_range.2 (hsome ⟨rfl, rfl⟩))
  have hmethod : (e.probeAt acknowledging {} 0).method = Method.sendToAddress.wireName := rfl
  refine ⟨rfl, e.probeAt acknowledging {} 0, e.askedAt acknowledging {} 0, ?_, hmethod, ?_⟩
  · rw [hrun]
    exact hfirst
  · rw [hmethod, Method.withheld_wireName_iff]
    rfl

end Session

end DaemonRpc
