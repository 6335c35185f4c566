import DaemonRpc.Proofs.Client.Course

/-!
# What an establishment tells in its log

The log of an establishment has a line for every state that it enters and for every attempt that
fails.  `Wire.transitions` and `Wire.failures` are these two views, and `Wire.SameRecords` relates
wires that agree on both.

* `moves` are the transitions through the first attempts, and `failuresUpTo` their failures.
* `Closing` is what is told of the way to a last state; `closing_abandon`, `closing_giveUp` and
  `closing_connect` are the three ways there.
* `wait_cases`, `ask_cases` and `miss_eq` say which of them a step takes.
-/

namespace DaemonRpc

/-! ## Two views of the log -/

namespace LogEntry

/-- The states before and after, in a line that tells them. -/
def transition? : LogEntry → Option (EstablishState × EstablishState)
  | entering previous next => some (previous, next)
  | _ => none

/-- The attempt and its error, in a line that tells of a failure. -/
def failure? : LogEntry → Option (UInt32 × Error)
  | attemptFailed attempt _ e => some (attempt, e)
  | _ => none

end LogEntry

/-- The line of an event of the log. -/
def Event.line? : Event → Option LogEntry
  | .log entry => some entry
  | _ => none

namespace Wire

variable {w : Wire}

/-- What the lines of the log tell, in their order. -/
def lines {α : Type} (tell : LogEntry → Option α) (w : Wire) : List α :=
  w.journal.reverse.filterMap fun event => event.line?.bind tell

/-- The states that an establishment left and entered. -/
def transitions (w : Wire) : List (EstablishState × EstablishState) :=
  w.lines LogEntry.transition?

/-- The attempts that failed. -/
def failures (w : Wire) : List (UInt32 × Error) := w.lines LogEntry.failure?

/-- Two wires whose logs tell the same of the states and the failures. -/
structure SameRecords (v w : Wire) : Prop where
  transitions : v.transitions = w.transitions
  failures : v.failures = w.failures

theorem lines_note {α : Type} (tell : LogEntry → Option α) (w : Wire) (event : Event) :
    (w.note event).lines tell = w.lines tell ++ (event.line?.bind tell).toList := by
  simp only [lines, note, List.reverse_cons, List.filterMap_append]
  cases htell : event.line?.bind tell with
  | none => simp [htell]
  | some _ => simp [htell]

theorem transitions_log (w : Wire) (entry : LogEntry) :
    (w.log entry).transitions = w.transitions ++ entry.transition?.toList :=
  lines_note _ w _

theorem failures_log (w : Wire) (entry : LogEntry) :
    (w.log entry).failures = w.failures ++ entry.failure?.toList :=
  lines_note _ w _

theorem SameRecords.refl (w : Wire) : w.SameRecords w := ⟨rfl, rfl⟩

theorem SameRecords.trans {u v w : Wire} (h : u.SameRecords v) (h' : v.SameRecords w) :
    u.SameRecords w :=
  ⟨h.transitions.trans h'.transitions, h.failures.trans h'.failures⟩

theorem sameRecords_note (w : Wire) {event : Event}
    (htransition : event.line?.bind LogEntry.transition? = none)
    (hfailure : event.line?.bind LogEntry.failure? = none) : (w.note event).SameRecords w := by
  refine ⟨?_, ?_⟩
  · rw [transitions, lines_note, htransition]
    exact List.append_nil _
  · rw [failures, lines_note, hfailure]
    exact List.append_nil _

theorem sameRecords_terminate (w : Wire) : w.terminate.SameRecords w :=
  (sameRecords_note _ rfl rfl).trans (sameRecords_note w rfl rfl)

theorem sameRecords_take (w : Wire) (answer : Except TransportError Bytes) :
    (w.take answer).SameRecords w := by
  cases answer with
  | ok body => exact sameRecords_note w rfl rfl
  | error _ => exact .refl w

theorem sameRecords_waitUntil (w : Wire) (due : Nat) : (w.waitUntil due).2.SameRecords w := by
  rcases waitUntil_cases w due with ⟨hwait, -⟩ | ⟨time, hwait, -⟩
  · rw [hwait]
    exact ⟨rfl, rfl⟩
  · rw [hwait]
    exact ⟨rfl, rfl⟩

theorem sameRecords_sleep (w : Wire) (d : Duration) : (w.sleep d).2.SameRecords w := by
  rw [sleep]
  split
  · exact .refl w
  · exact sameRecords_waitUntil w _

theorem sameRecords_send (env : Surroundings) (w : Wire) (method : String) (params : Params) :
    (w.send env method params).2.2.SameRecords w := by
  let request : Request := { method, params, id := env.newId w.sent }
  have hsent : ((w.log (.request request.wire)).note (.sent request w.clock)).SameRecords w :=
    (sameRecords_note _ rfl rfl).trans (sameRecords_note w rfl rfl)
  rw [send]
  dsimp only
  split
  · exact ⟨hsent.transitions, hsent.failures⟩
  · exact ⟨hsent.transitions, hsent.failures⟩

end Wire

/-! ## The states in their order -/

namespace Establishment

open Establisher

/-- The state with the given number, the idle one first. -/
def stateAt : Nat → EstablishState
  | 0 => .idle
  | n + 1 => .attempting (.ofNat (n + 1))

/-- The first transitions, from each state to the next. -/
def moves (n : Nat) : List (EstablishState × EstablishState) :=
  (List.range n).map fun i => (stateAt i, stateAt (i + 1))

theorem moves_succ (n : Nat) : moves (n + 1) = moves n ++ [(stateAt n, stateAt (n + 1))] := by
  rw [moves, List.range_succ, List.map_append]
  rfl

theorem length_moves (n : Nat) : (moves n).length = n := by
  rw [moves, List.length_map, List.length_range]

theorem isTerminal_stateAt (n : Nat) : (stateAt n).isTerminal = false := by
  cases n with
  | zero => rfl
  | succ n => rfl

/-- The failures of the first attempts. -/
def failuresUpTo (e : Establisher) (env : Surroundings) (w : Wire) (n : Nat) :
    List (UInt32 × Error) :=
  (List.range n).filterMap fun i =>
    match e.outcomeAt env w i with
    | .ok _ => none
    | .error err => some (.ofNat (i + 1), err)

variable {e : Establisher} {env : Surroundings} {w : Wire} {r : Establishment}

theorem failuresUpTo_succ {i : Nat} {err : Error} (h : e.outcomeAt env w i = .error err) :
    failuresUpTo e env w (i + 1) = failuresUpTo e env w i ++ [(.ofNat (i + 1), err)] := by
  rw [failuresUpTo, List.range_succ, List.filterMap_append]
  simp [failuresUpTo, h]

/-! ## What the helpers of a step tell -/

theorem state_enter {next : EstablishState} (h : r.state.isTerminal = false) :
    (r.enter next).state = next := by
  rw [enter, h]
  rfl

theorem transitions_enter {next : EstablishState} (h : r.state.isTerminal = false) :
    (r.enter next).wire.transitions = r.wire.transitions ++ [(r.state, next)] := by
  rw [enter, h]
  exact Wire.transitions_log _ _

theorem failures_enter (r : Establishment) (next : EstablishState) :
    (r.enter next).wire.failures = r.wire.failures := by
  rw [enter]
  split
  · rfl
  · exact (Wire.failures_log _ _).trans (List.append_nil _)

/-- An establishment has gone from the state of `r` to its last one, and tells so. -/
structure Closing (last : EstablishState) (r after : Establishment) : Prop where
  state : after.state = last
  transitions : after.wire.transitions = r.wire.transitions ++ [(r.state, last)]

theorem closing_enter {last : EstablishState} (h : r.state.isTerminal = false) :
    Closing last r (r.enter last) :=
  ⟨state_enter h, transitions_enter h⟩

/-- What is done before and behind the last transition does not matter if it tells of none. -/
theorem Closing.between {last : EstablishState} {before after later : Establishment}
    (h : Closing last r after) (hbefore : r.state = before.state)
    (hearlier : r.wire.SameRecords before.wire) (hafter : later.state = after.state)
    (hlater : later.wire.SameRecords after.wire) : Closing last before later :=
  ⟨hafter.trans h.state,
    by rw [hlater.transitions, h.transitions, hearlier.transitions, hbefore]⟩

theorem closing_fail (e : Establisher) (h : r.state.isTerminal = false) :
    Closing .failed r (fail e r) := by
  have hentered : Closing .failed r (r.enter .failed) := closing_enter h
  rw [fail]
  split
  · exact hentered
  · dsimp only
    split
    · exact hentered.between rfl (.refl _) rfl (Wire.sameRecords_terminate _)
    · exact hentered.between rfl (.refl _) rfl
        ((Wire.sameRecords_note _ rfl rfl).trans (Wire.sameRecords_terminate _))

theorem closing_abandon (e : Establisher) (h : r.state.isTerminal = false) :
    Closing .failed r (abandon e r) := by
  have hfail : Closing .failed (r.log (.cancelled r.stats.attempts))
      (fail e (r.log (.cancelled r.stats.attempts))) := closing_fail e h
  exact hfail.between rfl (Wire.sameRecords_note r.wire rfl rfl) rfl (.refl _)

theorem closing_giveUp (e : Establisher) (err : Error) (h : r.state.isTerminal = false) :
    Closing .failed r (giveUp e err r) :=
  (closing_fail e h).between rfl (.refl _) rfl
    ((Wire.sameRecords_note _ rfl rfl).trans (Wire.sameRecords_note _ rfl rfl))

theorem closing_connect (e : Establisher) (v : Json) (h : r.state.isTerminal = false) :
    Closing .connected r (connect e v r) := by
  have hentered (version : Int64) (stats : RetryStats) :
      let line := LogEntry.connected version e.config.endpoint e.config.account
      Closing .connected r ({ r.log line with stats }.enter .connected) := by
    intro line
    have hlogged : Closing .connected { r.log line with stats }
        ({ r.log line with stats }.enter .connected) := closing_enter h
    exact hlogged.between rfl (Wire.sameRecords_note r.wire rfl rfl) rfl (.refl _)
  exact (hentered _ _).between rfl (.refl _) rfl (Wire.sameRecords_note _ rfl rfl)

/-! ## How an attempt goes -/

/-- An establishment that has noted the failure of a probe. -/
def noted (e : Establisher) (attempt : UInt32) (err : Error) (r : Establishment) :
    Establishment :=
  { r.log (.attemptFailed attempt (BackoffSchedule.ofConfig e.config).maxAttempts err) with
    stats := { r.stats with lastError := some err.message } }

/-- A failure is noted before it is known whether it was the last. -/
theorem miss_eq (e : Establisher) (attempt : UInt32) (err : Error) (r : Establishment) :
    miss e attempt err r =
      if (BackoffSchedule.ofConfig e.config).maxAttempts ≤ attempt then
        giveUp e err (noted e attempt err r)
      else { noted e attempt err r with stage := .announcing (attempt + 1) } := rfl

/-- The wait before a probe leads to the probe, or is cut off, or its delay cannot be added. -/
theorem wait_cases (e : Establisher) (attempt : UInt32) (r : Establishment) :
    ∃ v : Wire, v.SameRecords r.wire ∧
      ((∃ total, wait e attempt r =
          { r with
            wire := v
            stats := { r.stats with totalDelay := total, attempts := attempt }
            stage := .asking attempt }) ∨
        wait e attempt r = abandon e { r with wire := v } ∨
        wait e attempt r = finish { r with wire := v } .overflow) := by
  refine ⟨(r.wire.sleep ((BackoffSchedule.ofConfig e.config).delayFor attempt.toNat)).2,
    Wire.sameRecords_sleep _ _, ?_⟩
  rw [wait]
  dsimp only
  split
  · split
    · exact .inr (.inr rfl)
    · next total _ => exact .inl ⟨total, rfl⟩
  · exact .inr (.inl rfl)

/-- A probe succeeds, fails, or is cut off. -/
theorem ask_cases {i : Nat} {attempt : UInt32}
    (h : At e (.asking attempt) (i + 1) ((e.wireAt env w i).atTime (e.askedAt env w i)) r) :
    ∃ v : Wire, v.SameRecords r.wire ∧
      ((∃ answer, e.outcomeAt env w i = .ok answer ∧
          ask e env attempt r = connect e answer { r with wire := v }) ∨
        (∃ err, e.outcomeAt env w i = .error err ∧
          ask e env attempt r = miss e attempt err { r with wire := v }) ∨
        ask e env attempt r = abandon e { r with wire := v }) := by
  obtain ⟨sent, hsend, -⟩ := send_askedAt e env w h.wire
  have hsent : sent.SameRecords r.wire := by
    have hrecords := Wire.sameRecords_send env r.wire e.probe.wireName .none
    rwa [hsend] at hrecords
  have hwaited := (Wire.sameRecords_waitUntil sent
    (sent.clock + (e.exchangeAt env w i).delay)).trans hsent
  rw [ask]
  simp only [hsend]
  rcases hwait : sent.waitUntil (sent.clock + (e.exchangeAt env w i).delay) with
    ⟨answered, waited⟩
  rw [hwait] at hwaited
  cases answered with
  | false => exact ⟨waited, hwaited, .inr (.inr rfl)⟩
  | true =>
    refine ⟨waited.take (e.exchangeAt env w i).answer,
      (Wire.sameRecords_take _ _).trans hwaited, ?_⟩
    cases houtcome : e.outcomeAt env w i with
    | ok answer =>
      rw [outcomeAt] at houtcome
      simp only [if_true, houtcome]
      exact .inl ⟨answer, rfl, rfl⟩
    | error err =>
      rw [outcomeAt] at houtcome
      simp only [if_true, houtcome]
      exact .inr (.inl ⟨err, rfl, rfl⟩)

end Establishment

end DaemonRpc
