import DaemonRpc.Proofs.Json.RoundTrip
import DaemonRpc.Proofs.Rpc.Response

/-!
# Results and errors come as they were sent

A server prints an object, and the client reads it.  What stands in the member `result` of the
one is the outcome of the other, and an error object that was printed is the one that is reported,
but for data of `null`, which are left out.

* `Printed` says what the object of a server is, in whatever order its members stand, and
  `Printed.exists_read_text` what is read of it, member by member.
* `describes_normal_toJson` recognises an error object in what is read of its own form.
* `receiveBytes_text` joins the two to the outcomes.
-/

namespace DaemonRpc

open Json

/-- The members of an object that a reader takes in whole: names that are all different, numbers
that are whole, and a depth within the limit, of which the object itself is the first level. -/
structure Printed (members : List (String × Json)) : Prop where
  names : (members.map Prod.fst).Nodup
  whole : WholeNumbers (.object members)
  depth : DepthAtMost depthLimit (.object members)

/-- Of an object that was printed each member is read, with its own members put into order. -/
theorem Printed.exists_read_text {members : List (String × Json)} (h : Printed members) :
    ∃ read, Json.read (Bytes.utf8 (Json.object members).text) = .ok (.object read) ∧
      ∀ name, find? name read = (find? name members).map normal := by
  obtain ⟨read, hnormal, -, hfind⟩ := exists_normal_object members
  refine ⟨read, ?_, fun name => ?_⟩
  · rw [read_text h.depth h.whole, hnormal]
  · rw [hfind, findLast?_eq_find? h.names]

namespace RpcError

/-- What is read of an error object: data of `null` are left out. -/
def carried (e : RpcError) : RpcError := { e with data := e.data.bind dataOf }

/-- All data but `null` are carried. -/
theorem data_carried (e : RpcError) :
    (e.data ≠ some .null → e.carried.data = e.data) ∧
      (e.data = some .null → e.carried.data = none) := by
  constructor
  · intro hsome
    show e.data.bind dataOf = e.data
    cases hd : e.data with
    | none => rfl
    | some d => exact dataOf_eq_iff.2 (.inr ⟨fun hnull => hsome (hnull ▸ hd), rfl⟩)
  · intro hnull
    show e.data.bind dataOf = none
    rw [hnull]
    rfl

/-- The parts of an error object as its own form has them. -/
theorem parts_carried (e : RpcError) :
    Parts (some (.ofInt64 e.code)) (some (.string e.message)) e.data e.carried where
  code := ⟨.ofInt64 e.code, rfl, rfl⟩
  message := Or.inl rfl
  data := by
    by_cases hnull : e.data = some .null
    · exact Or.inl ⟨hnull, e.data_carried.2 hnull⟩
    · exact Or.inr ⟨hnull, (e.data_carried.1 hnull).symm⟩

/-- The form of an error object has its parts under their names. -/
theorem exists_toJson_eq_object (e : RpcError) :
    ∃ members, e.toJson = .object members ∧ (members.map Prod.fst).Nodup ∧
      find? "code" members = some (.ofInt64 e.code) ∧
      find? "message" members = some (.string e.message) ∧ find? "data" members = e.data := by
  obtain ⟨code, message, data⟩ := e
  refine ⟨_, rfl, ?_, rfl, rfl, ?_⟩
  · cases data <;> simp
  · cases data <;> simp [find?]

/-- What is read of the form of an error object is that error object, without data of `null`. -/
theorem describes_normal_toJson {e : RpcError} (hdata : ∀ d ∈ e.data, Canonical d) :
    Describes e.toJson.normal e.carried := by
  obtain ⟨members, hform, hnames, hcode, hmessage, hfound⟩ := e.exists_toJson_eq_object
  obtain ⟨read, hnormal, -, hlast⟩ := exists_normal_object members
  have hfind : ∀ name, find? name read = (find? name members).map normal := by
    intro name
    rw [hlast, findLast?_eq_find? hnames]
  have hsame : e.data.map normal = e.data := by
    cases hd : e.data with
    | none => rfl
    | some d => rw [Option.map_some, normal_eq_self (hdata d hd)]
  rw [hform, hnormal]
  apply Describes.object
  rw [hfind, hfind, hfind, hcode, hmessage, hfound, hsame]
  exact e.parts_carried

end RpcError

/-- A result is the outcome of the response that carries it, under the id that is printed with it.
An error object is reported under every id, with its code, its message and its data as they are,
and without data if these are `null`.  If the response has no id, the error object is the cause. -/
theorem receiveBytes_text {members : List (String × Json)} (h : Printed members) :
    (∀ id result, ("id", .string id) ∈ members → ("result", result) ∈ members →
      ("error", .null) ∈ members → result.Canonical →
      receiveBytes id (Bytes.utf8 (Json.object members).text) = .ok result) ∧
    ∀ (e : RpcError) (form : Json), (∀ d ∈ e.data, d.Canonical) → ("error", form) ∈ members →
      form.normal = e.toJson.normal →
      ∃ carried : RpcError,
        (carried.code = e.code ∧ carried.message = e.message ∧
          (e.data ≠ some .null → carried.data = e.data) ∧
          (e.data = some .null → carried.data = none)) ∧
        ∀ requestId,
          (∀ id, ("id", id) ∈ members → id ≠ .null →
            receiveBytes requestId (Bytes.utf8 (Json.object members).text) =
              .error (.rpc carried)) ∧
          ("id" ∉ members.map Prod.fst ∨ ("id", .null) ∈ members →
            receiveBytes requestId (Bytes.utf8 (Json.object members).text) =
              .error (.protocol (.missingId (some carried)))) := by
  obtain ⟨read, hread, hfind⟩ := h.exists_read_text
  have hmember : ∀ {name v}, (name, v) ∈ members → find? name read = some v.normal := by
    intro name v hv
    rw [hfind, find?_of_mem h.names hv, Option.map_some]
  constructor
  · intro id result hid hresult herror hcanonical
    have hresponse : IsResponse (Bytes.utf8 (Json.object members).text) read none :=
      ⟨hread, hmember herror ▸ .null⟩
    rw [receiveBytes_of_isResponse hresponse, Response.outcome_eq_ok_iff]
    refine ⟨rfl, ?_, ?_⟩
    · show Response.idOf (find? "id" read) = some id
      rw [hmember hid]
      rfl
    · show result = (find? "result" read).getD .null
      rw [hmember hresult, normal_eq_self hcanonical]
      rfl
  · intro e form hdata herror hform
    have hdescribes : RpcError.Describes form.normal e.carried :=
      hform ▸ RpcError.describes_normal_toJson hdata
    have hresponse : IsResponse (Bytes.utf8 (Json.object members).text) read (some e.carried) := by
      refine ⟨hread, hmember herror ▸ .present ?_ hdescribes⟩
      intro hnull
      rw [hnull] at hdescribes
      nomatch hdescribes
    refine ⟨e.carried, ⟨rfl, rfl, e.data_carried⟩, fun requestId => ⟨?_, ?_⟩⟩
    · intro id hid hne
      rw [receiveBytes_of_isResponse hresponse, Response.outcome_eq_rpc_iff]
      refine ⟨?_, rfl⟩
      rw [ne_eq, Response.idOf_eq_none_iff, hmember hid]
      rintro (habsent | hnull)
      · nomatch habsent
      · exact hne (normal_eq_null_iff.1 (Option.some.inj hnull))
    · intro hid
      rw [receiveBytes_of_isResponse hresponse, Response.outcome_eq_missingId_iff]
      refine ⟨Response.idOf_eq_none_iff.2 ?_, rfl⟩
      rcases hid with habsent | hnull
      · left
        rw [hfind, find?_eq_none_iff.2 habsent]
        rfl
      · right
        rw [hmember hnull]
        rfl

/-- A result under an id with a quotation mark, and an error with data of `null` under an id that
is no string. -/
theorem receiveBytes_text_null_data :
    let response : List (String × Json) :=
      [("id", .string "a\"b"), ("result", .array [.string "\n", .bool true]), ("error", .null)]
    let warmup : RpcError := { code := -28, message := "é", data := some .null }
    let refusal : List (String × Json) := [("id", .bool true), ("error", warmup.toJson)]
    (Printed response ∧ Printed refusal) ∧
      receiveBytes "a\"b" (Bytes.utf8 (Json.object response).text) =
        .ok (.array [.string "\n", .bool true]) ∧
      ∃ carried : RpcError, (carried.code = -28 ∧ carried.message = "é" ∧ carried.data = none) ∧
        receiveBytes "a\"b" (Bytes.utf8 (Json.object refusal).text) = .error (.rpc carried) := by
  intro response warmup refusal
  have hresponse : Printed response := by
    refine ⟨by decide, ?_, ?_⟩
    · simp [response]
    · simp [response, depthLimit]
  have hrefusal : Printed refusal := by
    refine ⟨by decide, ?_, ?_⟩
    · simp [refusal, warmup, RpcError.toJson, ofInt64]
    · simp [refusal, warmup, RpcError.toJson, ofInt64, depthLimit]
  have hnull : ∀ d ∈ warmup.data, d.Canonical := by
    intro d hd
    obtain rfl : Json.null = d := Option.some.inj hd
    exact .null
  have hresult : Canonical (.array [.string "\n", .bool true]) := by simp
  obtain ⟨carried, ⟨hcode, hmessage, -, hdata⟩, hanswer⟩ :=
    (receiveBytes_text hrefusal).2 warmup warmup.toJson hnull (by simp [refusal]) rfl
  refine ⟨⟨hresponse, hrefusal⟩, ?_, carried, ⟨hcode, hmessage, hdata rfl⟩, ?_⟩
  · exact (receiveBytes_text hresponse).1 "a\"b" _ (by simp [response]) (by simp [response])
      (by simp [response]) hresult
  · exact (hanswer "a\"b").1 (.bool true) (by simp [refusal]) (by simp)

end DaemonRpc
