import DaemonRpc.Proofs.Json.RoundTrip
import DaemonRpc.Rpc.Request

/-!
# The bytes of a request stand for the request

Whatever the method, the parameters and the id are, the bytes of a request are the text of an
object with four members, in which each of the three stands as it is.  No method, no parameter and
no id can therefore add a member, and no two requests have the same bytes.

* `normal_toJson` is the object that is read, its members in order.
* `read_wire_iff` says when it is read, which is as deep as the reader goes, and that no two
  requests have the same bytes.
-/

namespace DaemonRpc

open Json

/-- Parameters are known by their value in a request. -/
theorem Params.toJson_injective {p q : Params} (h : p.toJson = q.toJson) : p = q := by
  cases p with
  | none =>
    cases q with
    | none => rfl
    | positional _ => exact absurd h (by simp [toJson])
    | named _ => exact absurd h (by simp [toJson])
  | positional items =>
    cases q with
    | none => exact absurd h (by simp [toJson])
    | positional _ => exact congrArg _ (Json.array.inj h)
    | named _ => exact absurd h (by simp [toJson])
  | named members =>
    cases q with
    | none => exact absurd h (by simp [toJson])
    | positional _ => exact absurd h (by simp [toJson])
    | named _ => exact congrArg _ (Json.object.inj h)

namespace Request

/-- What a request reads as: its members in the order of their names. -/
theorem normal_toJson {r : Request} (h : r.params.toJson.Canonical) :
    r.toJson.normal = .object [("id", .string r.id), ("jsonrpc", .string "1.0"),
      ("method", .string r.method), ("params", r.params.toJson)] := by
  have hmethod : ¬ "method" < "jsonrpc" ∧ "method" ≠ "jsonrpc" := by decide
  have hparams : ¬ "params" < "jsonrpc" ∧ "params" ≠ "jsonrpc" ∧ ¬ "params" < "method" ∧
      "params" ≠ "method" := by decide
  have hid : "id" < "jsonrpc" := by decide
  simp only [toJson, normal, normalMembers, normalMember, normal_eq_self h, jsonrpcVersion,
    ofMembers, List.foldl_cons, List.foldl_nil, insertMember, hmethod, hparams, hid, if_true,
    if_false]

theorem wholeNumbers_toJson {r : Request} (h : r.params.toJson.WholeNumbers) :
    r.toJson.WholeNumbers := by
  refine .object _ ?_
  simp only [List.mem_cons, List.not_mem_nil, or_false]
  rintro m (rfl | rfl | rfl | rfl)
  · exact .string _
  · exact .string _
  · exact h
  · exact .string _

/-- A request is one level deeper than its parameters. -/
theorem depthAtMost_toJson {r : Request} {n : Nat} (h : r.params.toJson.DepthAtMost n) :
    r.toJson.DepthAtMost (n + 1) := by
  refine .object n _ ?_
  simp only [List.mem_cons, List.not_mem_nil, or_false]
  rintro m (rfl | rfl | rfl | rfl)
  · exact .string n _
  · exact .string n _
  · exact h
  · exact .string n _

/-- The bytes of a request are the text of an object that has exactly four members, with the
method, the parameters and the id as they are, whatever characters and values these hold.  The
object itself takes one level of what the reader admits, and the parameters may have all others.
Requests that differ have different bytes, however deep their parameters are. -/
theorem read_wire_iff (r : Request) (hcanonical : r.params.toJson.Canonical)
    (hwhole : r.params.toJson.WholeNumbers) :
    (Json.read r.wire = .ok (.object
        [("id", .string r.id), ("jsonrpc", .string "1.0"), ("method", .string r.method),
          ("params", match r.params with
            | .none => .null
            | .positional items => .array items
            | .named members => .object members)]) ↔
      r.params.toJson.DepthAtMost (depthLimit - 1)) ∧
    ∀ r' : Request, r'.params.toJson.Canonical → r'.params.toJson.WholeNumbers →
      r'.wire = r.wire → r' = r := by
  have hparams : (match r.params with
      | .none => Json.null
      | .positional items => .array items
      | .named members => .object members) = r.params.toJson := by
    cases r.params <;> rfl
  rw [hparams]
  refine ⟨⟨?_, ?_⟩, ?_⟩
  · intro hread
    have hdepth := read_depthAtMost hread
    cases hdepth with
    | object _ _ each => exact each ("params", r.params.toJson) (by simp)
  · intro hdepth
    rw [← normal_toJson hcanonical]
    exact read_text (depthAtMost_toJson hdepth) (wholeNumbers_toJson hwhole)
  · intro r' hcanonical' hwhole' hwire
    have hsame := normal_eq_of_text_eq (wholeNumbers_toJson hwhole') (wholeNumbers_toJson hwhole)
      hwire
    rw [normal_toJson hcanonical', normal_toJson hcanonical] at hsame
    simp only [Json.object.injEq, List.cons.injEq, Prod.mk.injEq, Json.string.injEq, true_and,
      and_true] at hsame
    obtain ⟨hid, hmethod, hparams'⟩ := hsame
    obtain ⟨method, params, id⟩ := r
    obtain ⟨method', params', id'⟩ := r'
    obtain rfl : id' = id := hid
    obtain rfl : method' = method := hmethod
    obtain rfl : params' = params := Params.toJson_injective hparams'
    rfl

/-- A method and an id that would end their strings early, a name that would add a member, and
parameters with a control character. -/
theorem read_wire_iff_quotes :
    let params : List (String × Json) :=
      [("\"id", .array [.number (.whole (.ofInt64 (-1))), .string "\u0000\n\\"])]
    Json.read ({ method := "\",\"id\":\"", params := .named params, id := "é\"" } : Request).wire =
      .ok (.object [("id", .string "é\""), ("jsonrpc", .string "1.0"),
        ("method", .string "\",\"id\":\""), ("params", .object params)]) := by
  intro params
  have hcanonical : Canonical (.object params) := .object _ trivial (by simp [params])
  have hwhole : WholeNumbers (.object params) := by simp [params]
  have hdepth : DepthAtMost (depthLimit - 1) (.object params) := by simp [params, depthLimit]
  exact (read_wire_iff ⟨"\",\"id\":\"", .named params, "é\""⟩ hcanonical hwhole).1.2 hdepth

end Request

end DaemonRpc
