import DaemonRpc.Client.Wire

/-!
# What can be seen of a wire

The journal of a wire mixes what a client does with lines of the log.  `Wire.requests` and
`Wire.handling` are the two things that an observer asks for, and `Wire.quiet` is the wire
without its log.

* `waitUntil_cases` and `sleep_cases` say how a wait goes: it comes to its end, or it is cut
  off at a time that `Wire.CutAt` describes.
* `quiet_send` is what sending a request adds, and `requests_send` the request that goes out.
-/

namespace DaemonRpc

namespace Event

/-- The request that goes out in an event, and when. -/
def sent? : Event → Option (Request × Nat)
  | sent request time => some (request, time)
  | _ => none

/-- The process is called or let go. -/
def isHandling : Event → Bool
  | process _ | released => true
  | _ => false

/-- A line of the log. -/
def isLog : Event → Bool
  | log _ => true
  | _ => false

end Event

namespace Wire

variable {w : Wire}

/-- The wire at another time. -/
def atTime (w : Wire) (time : Nat) : Wire := { w with clock := time }

@[simp] theorem clock_atTime (w : Wire) (time : Nat) : (w.atTime time).clock = time := rfl

@[simp] theorem cancelled_atTime (w : Wire) (time : Nat) :
    (w.atTime time).cancelled = w.cancelled := rfl

@[simp] theorem cancelAt_atTime (w : Wire) (time : Nat) :
    (w.atTime time).cancelAt = w.cancelAt := rfl

@[simp] theorem sent_atTime (w : Wire) (time : Nat) : (w.atTime time).sent = w.sent := rfl

@[simp] theorem previous_atTime (w : Wire) (time : Nat) :
    (w.atTime time).previous = w.previous := rfl

theorem atTime_clock (w : Wire) : w.atTime w.clock = w := rfl

/-! ## Three views -/

/-- The requests that went out, in their order and each with its time. -/
def requests (w : Wire) : List (Request × Nat) := w.journal.reverse.filterMap Event.sent?

/-- What was done with the process, in its order. -/
def handling (w : Wire) : List Event := w.journal.reverse.filter Event.isHandling

/-- The wire without its log. -/
def quiet (w : Wire) : Wire := { w with journal := w.journal.filter (!·.isLog) }

@[simp] theorem quiet_log (w : Wire) (entry : LogEntry) : (w.log entry).quiet = w.quiet := rfl

@[simp] theorem quiet_take (w : Wire) (answer : Except TransportError Bytes) :
    (w.take answer).quiet = w.quiet := by
  cases answer with
  | ok _ => rfl
  | error _ => rfl

/-- All but the events is the same without the log. -/
theorem fields_of_quiet {v : Wire} (h : w.quiet = v) :
    w.clock = v.clock ∧ w.cancelled = v.cancelled ∧ w.cancelAt = v.cancelAt ∧ w.sent = v.sent ∧
      w.previous = v.previous := by
  rw [← h]
  exact ⟨rfl, rfl, rfl, rfl, rfl⟩

theorem quiet_atTime (w : Wire) (time : Nat) : (w.atTime time).quiet = w.quiet.atTime time := rfl

theorem quiet_cancelNow (w : Wire) : w.cancelNow.quiet = w.quiet.cancelNow := rfl

theorem quiet_terminate (w : Wire) : w.terminate.quiet = w.quiet.terminate := rfl

/-- The log has no requests in it. -/
@[simp] theorem requests_quiet (w : Wire) : w.quiet.requests = w.requests := by
  simp only [requests, quiet, ← List.filter_reverse, List.filterMap_filter]
  congr 1
  funext event
  cases event with
  | log _ => rfl
  | _ => rfl

/-- The log has no process in it. -/
@[simp] theorem handling_quiet (w : Wire) : w.quiet.handling = w.handling := by
  simp only [handling, quiet, ← List.filter_reverse, List.filter_filter]
  congr 1
  funext event
  cases event with
  | log _ => rfl
  | _ => rfl

@[simp]
theorem handling_log (w : Wire) (entry : LogEntry) : (w.log entry).handling = w.handling := by
  rw [← handling_quiet, quiet_log, handling_quiet]

@[simp] theorem handling_take (w : Wire) (answer : Except TransportError Bytes) :
    (w.take answer).handling = w.handling := by
  rw [← handling_quiet, quiet_take, handling_quiet]

@[simp]
theorem requests_atTime (w : Wire) (time : Nat) : (w.atTime time).requests = w.requests := rfl

@[simp]
theorem handling_atTime (w : Wire) (time : Nat) : (w.atTime time).handling = w.handling := rfl

@[simp] theorem requests_cancelNow (w : Wire) : w.cancelNow.requests = w.requests := rfl

@[simp] theorem handling_cancelNow (w : Wire) : w.cancelNow.handling = w.handling := rfl

/-- An event that is noted comes last. -/
theorem handling_note (w : Wire) (event : Event) :
    (w.note event).handling = w.handling ++ if event.isHandling then [event] else [] := by
  simp only [handling, note, List.reverse_cons, List.filter_append, List.filter_cons,
    List.filter_nil]

@[simp] theorem handling_terminate (w : Wire) :
    w.terminate.handling = w.handling ++ [.process .terminate, .released] := by
  simp [terminate, handling_note, Event.isHandling]

/-- A request that is noted comes last. -/
theorem requests_note (w : Wire) (event : Event) :
    (w.note event).requests = w.requests ++ event.sent?.toList := by
  simp only [requests, note, List.reverse_cons, List.filterMap_append]
  cases hsent : event.sent? with
  | none => simp [hsent]
  | some _ => simp [hsent]

@[simp] theorem requests_terminate (w : Wire) : w.terminate.requests = w.requests := by
  simp [terminate, requests_note, Event.sent?]

/-! ## Waiting -/

/-- A wait up to `due` that is cut off is cut off at `time`: at once if the caller has
cancelled, or else when the caller cancels. -/
def CutAt (w : Wire) (due time : Nat) : Prop :=
  (w.cancelled = true ∧ time = w.clock) ∨
    (w.cancelled = false ∧ ∃ t, w.cancelAt = some t ∧ t < due ∧ time = max w.clock t)

theorem cutAt_quiet (w : Wire) (due time : Nat) : w.quiet.CutAt due time ↔ w.CutAt due time :=
  Iff.rfl

/-- The wait of a caller who has not cancelled and is not going to is not cut off. -/
theorem not_cutAt {due time : Nat} (hcancelled : w.cancelled = false)
    (hcancelAt : w.cancelAt = none) : ¬ w.CutAt due time := by
  intro hcut
  rcases hcut with ⟨hflag, -⟩ | ⟨-, t, ht, -⟩
  · rw [hcancelled] at hflag
    exact absurd hflag (by simp)
  · rw [hcancelAt] at ht
    exact absurd ht (by simp)

/-- A wait comes to its end, which the caller does not cancel before, or it is cut off. -/
theorem waitUntil_cases (w : Wire) (due : Nat) :
    (w.waitUntil due = (true, w.atTime (max w.clock due)) ∧
        ∀ t ∈ w.cancelAt, due ≤ max w.clock t) ∨
      ∃ time, w.waitUntil due = (false, (w.atTime time).cancelNow) ∧
        w.clock < due ∧ w.CutAt due time := by
  rw [waitUntil]
  by_cases hdue : due ≤ w.clock
  · refine Or.inl ⟨?_, fun t _ => by omega⟩
    rw [if_pos hdue, Nat.max_eq_left hdue]
    rfl
  rw [if_neg hdue]
  by_cases hcancelled : w.cancelled = true
  · -- the caller has cancelled before, and the time stays what it is
    refine Or.inr ⟨w.clock, ?_, by omega, Or.inl ⟨hcancelled, rfl⟩⟩
    rw [if_pos hcancelled, cancelNow, ← hcancelled]
    rfl
  rw [if_neg hcancelled]
  cases hat : w.cancelAt with
  | none => exact Or.inl ⟨rfl, by simp⟩
  | some t =>
    by_cases ht : t < due
    · refine Or.inr ⟨max w.clock t, ?_, by omega, Or.inr ⟨?_, t, hat, ht, rfl⟩⟩
      · simp only [if_pos ht, advance, atTime]
      · simpa using hcancelled
    · refine Or.inl ⟨?_, ?_⟩
      · simp only [if_neg ht, advance, atTime]
      · intro t' ht'
        obtain rfl : t = t' := by simpa using ht'
        omega

/-- A sleep is a wait, but a caller who has cancelled does not even begin it. -/
theorem sleep_cases (w : Wire) (d : Duration) :
    (w.sleep d = (true, w.atTime (w.clock + Timer.millis d)) ∧ w.cancelled = false ∧
        ∀ t ∈ w.cancelAt, w.clock + Timer.millis d ≤ max w.clock t) ∨
      ∃ time, w.sleep d = (false, (w.atTime time).cancelNow) ∧
        w.CutAt (w.clock + Timer.millis d) time := by
  rw [sleep]
  by_cases hcancelled : w.cancelled = true
  · refine Or.inr ⟨w.clock, ?_, Or.inl ⟨hcancelled, rfl⟩⟩
    rw [if_pos hcancelled, cancelNow, ← hcancelled]
    rfl
  rw [if_neg hcancelled]
  rcases waitUntil_cases w (w.clock + Timer.millis d) with ⟨hwait, hlate⟩ | ⟨time, hwait, -, hcut⟩
  · refine Or.inl ⟨?_, by simpa using hcancelled, hlate⟩
    rw [hwait, Nat.max_eq_right (Nat.le_add_right _ _)]
  · exact Or.inr ⟨time, hwait, hcut⟩

/-! ## Sending -/

/-- What sending a request adds to a wire, the log aside. -/
theorem quiet_send (env : Surroundings) (w : Wire) (method : String) (params : Params) :
    ∃ request exchange after, w.send env method params = (request, exchange, after) ∧
      request = { method, params, id := env.newId w.sent } ∧
      exchange = env.transport { number := w.sent, previous := w.previous, request } ∧
      after.quiet =
        { w.quiet with
          cancelled := w.cancelled || exchange.cancels
          sent := w.sent + 1
          previous := some request.id
          journal := .sent request w.clock :: w.quiet.journal } := by
  refine ⟨_, _, _, rfl, rfl, rfl, ?_⟩
  split
  · rename_i hcancels
    simp [hcancels, cancelNow, quiet, log, note, Event.isLog]
  · rename_i hcancels
    simp [hcancels, quiet, log, note, Event.isLog]

/-- A request that is sent is the last one so far. -/
theorem requests_send (env : Surroundings) (w : Wire) (method : String) (params : Params) :
    (w.send env method params).2.2.requests =
      w.requests ++ [({ method, params, id := env.newId w.sent }, w.clock)] := by
  obtain ⟨request, exchange, after, hsend, hrequest, -, hafter⟩ := quiet_send env w method params
  rw [hsend, ← requests_quiet, hafter, ← requests_quiet w, ← hrequest]
  simp [requests, Event.sent?]

theorem handling_send (env : Surroundings) (w : Wire) (method : String) (params : Params) :
    (w.send env method params).2.2.handling = w.handling := by
  obtain ⟨request, exchange, after, hsend, -, -, hafter⟩ := quiet_send env w method params
  rw [hsend, ← handling_quiet, hafter, ← handling_quiet w]
  simp [handling, Event.isHandling]

end Wire

end DaemonRpc
