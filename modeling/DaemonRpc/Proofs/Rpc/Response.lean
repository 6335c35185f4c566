import DaemonRpc.Client.Wire
import DaemonRpc.Proofs.Rpc.ErrorObject
import DaemonRpc.Proofs.Rpc.RequestId
import DaemonRpc.Rpc.Response
import Mathlib

/-!
# What every reply means

A reply is any string of bytes.  `Classified` says which of five things it means to a request,
and each of them by a condition on the members of the object that the bytes are the text of.
The conditions are those of the daemon's protocol: they mention the error object through
`RpcError.Describes` and the id through the string that it has to be.

* `IsResponse` is the first condition: the bytes are one object whose error can be read.
  `malformed_iff` shows that every other reply is malformed.
* `receiveBytes_of_isResponse` reduces the rest to the id, the error and the result.
* `answer_classified` puts the conditions together for a request that was sent.
* `decodeResult_eq` is how a result is read as a value of a known shape.
-/

namespace DaemonRpc

/-! ## The members of a response -/

/-- What the member `error` of a response reports; `null` reports nothing. -/
inductive ReportedError : Option Json → Option RpcError → Prop where
  | absent : ReportedError none none
  | null : ReportedError (some .null) none
  | present {v : Json} {e : RpcError} (hv : v ≠ .null) (describes : RpcError.Describes v e) :
      ReportedError (some v) (some e)

/-- The bytes are the text of exactly one object, and what its error reports can be read. -/
structure IsResponse (bytes : Bytes) (members : List (String × Json))
    (error : Option RpcError) : Prop where
  object : Json.read bytes = .ok (.object members)
  error : ReportedError (Json.find? "error" members) error

/-- The member `id` is left out or `null`. -/
def WithoutId (members : List (String × Json)) : Prop :=
  Json.find? "id" members = none ∨ Json.find? "id" members = some .null

/-- The member `id` is the string that is the id of the request. -/
def HasId (requestId : String) (members : List (String × Json)) : Prop :=
  Json.find? "id" members = some (.string requestId)

/-- The outcome of a reply to the request of the given id: which one it is, and exactly when. -/
structure Classified (requestId : String) (bytes : Bytes) (outcome : Except Error Json) :
    Prop where
  malformed : (∃ detail, outcome = .error (.protocol (.malformed detail))) ↔
    ¬ ∃ members error, IsResponse bytes members error
  missingId : ∀ {members error}, IsResponse bytes members error → ∀ cause,
    outcome = .error (.protocol (.missingId cause)) ↔ WithoutId members ∧ cause = error
  rpc : ∀ {members error}, IsResponse bytes members error → ∀ e,
    outcome = .error (.rpc e) ↔ ¬ WithoutId members ∧ error = some e
  idMismatch : ∀ {members error}, IsResponse bytes members error →
    ((∃ actual, outcome = .error (.protocol (.idMismatch requestId actual))) ↔
      ¬ WithoutId members ∧ error = none ∧ ¬ HasId requestId members)
  success : ∀ {members error}, IsResponse bytes members error → ∀ v,
    outcome = .ok v ↔ error = none ∧ HasId requestId members ∧
      v = (Json.find? "result" members).getD .null

namespace Response

/-! ## Reading the members -/

/-- A value that is not `null` is an error or a malformation. -/
theorem errorOf_some {v : Json} (hv : v ≠ .null) :
    errorOf (some v) = match RpcError.ofJson v with
      | .ok e => .ok (some e)
      | .error fault => .error (.errorObject fault) := by
  cases v with
  | null => exact absurd rfl hv
  | bool _ => rfl
  | number _ => rfl
  | string _ => rfl
  | array _ => rfl
  | object _ => rfl

/-- The reader of the error member succeeds exactly with what the member reports. -/
theorem errorOf_eq_ok_iff {members : List (String × Json)}
    (h : Json.Canonical (.object members)) {error : Option RpcError} :
    errorOf (Json.find? "error" members) = .ok error ↔
      ReportedError (Json.find? "error" members) error := by
  cases hfind : Json.find? "error" members with
  | none =>
    constructor
    · intro hread
      obtain rfl := Except.ok.inj hread
      exact ReportedError.absent
    · intro hright
      cases hright
      rfl
  | some v =>
    have hv : v.Canonical := h.find? hfind
    by_cases hnull : v = .null
    · subst hnull
      constructor
      · intro hread
        obtain rfl := Except.ok.inj hread
        exact ReportedError.null
      · intro hright
        rcases hright with _ | _ | ⟨hne, _⟩
        · rfl
        · exact absurd rfl hne
    · rw [errorOf_some hnull]
      constructor
      · intro hread
        split at hread
        · rename_i e he
          obtain rfl := Except.ok.inj hread
          exact ReportedError.present hnull ((RpcError.ofJson_eq_ok_iff hv).1 he)
        · simp at hread
      · intro hright
        rcases hright with _ | _ | ⟨hne, describes⟩
        · exact absurd rfl hnull
        · rw [(RpcError.ofJson_eq_ok_iff hv).2 describes]

/-- There is no id exactly when the member is left out or `null`. -/
theorem idOf_eq_none_iff {found : Option Json} :
    idOf found = none ↔ found = none ∨ found = some .null := by
  rcases found with _ | v
  · simp [idOf]
  · cases v with
    | null => simp [idOf]
    | bool _ => simp [idOf]
    | number _ => simp [idOf]
    | string _ => simp [idOf]
    | array _ => simp [idOf]
    | object _ => simp [idOf]

/-- The id of a response is that of the request exactly when it is that string. -/
theorem idOf_eq_some_iff {requestId : String} (hid : RequestId.isRandomUuid requestId = true)
    {found : Option Json} : idOf found = some requestId ↔ found = some (.string requestId) := by
  have htext := fun v hv => Json.text_ne_of_isRandomUuid hid (v := v) hv
  rcases found with _ | v
  · simp [idOf]
  · cases v with
    | null => simp [idOf]
    | string _ => simp [idOf]
    | bool _ => simp [idOf, htext]
    | number _ => simp [idOf, htext]
    | array _ => simp [idOf, htext]
    | object _ => simp [idOf, htext]

/-- An object is a response exactly when its error can be read. -/
theorem ofJson_object_eq_ok_iff {members : List (String × Json)}
    (h : Json.Canonical (.object members)) {r : Response} :
    ofJson (.object members) = .ok r ↔
      ∃ error, ReportedError (Json.find? "error" members) error ∧
        r = { id := idOf (Json.find? "id" members)
              result := Json.find? "result" members
              error } := by
  rw [ofJson, bind_eq_ok_iff]
  simp only [errorOf_eq_ok_iff h]
  constructor
  · intro hleft
    obtain ⟨error, herror, hr⟩ := hleft
    exact ⟨error, herror, (Except.ok.inj hr).symm⟩
  · intro hright
    obtain ⟨error, herror, rfl⟩ := hright
    exact ⟨error, herror, rfl⟩

/-- Bytes are a response exactly when they are one object whose error can be read. -/
theorem ofBytes_eq_ok_iff {bytes : Bytes} {r : Response} :
    ofBytes bytes = .ok r ↔ ∃ members error, IsResponse bytes members error ∧
      r = { id := idOf (Json.find? "id" members)
            result := Json.find? "result" members
            error } := by
  unfold ofBytes
  constructor
  · intro h
    split at h
    · rename_i v hread
      cases v with
      | object members =>
        obtain ⟨error, herror, rfl⟩ := (ofJson_object_eq_ok_iff (Json.read_canonical hread)).1 h
        exact ⟨members, error, ⟨hread, herror⟩, rfl⟩
      | null => simp [ofJson] at h
      | bool _ => simp [ofJson] at h
      | number _ => simp [ofJson] at h
      | string _ => simp [ofJson] at h
      | array _ => simp [ofJson] at h
    · simp at h
  · intro hright
    obtain ⟨members, error, ⟨hread, herror⟩, rfl⟩ := hright
    rw [hread]
    exact (ofJson_object_eq_ok_iff (Json.read_canonical hread)).2 ⟨error, herror, rfl⟩

/-! ## The outcomes of a response -/

section Outcomes

variable {requestId : String} {r : Response}

/-- A response that could be read is not malformed. -/
theorem outcome_ne_malformed (detail : String) :
    r.outcome requestId ≠ .error (.protocol (.malformed detail)) := by
  unfold outcome
  split
  · simp
  · simp
  · split <;> simp

theorem outcome_eq_missingId_iff {cause : Option RpcError} :
    r.outcome requestId = .error (.protocol (.missingId cause)) ↔
      r.id = none ∧ cause = r.error := by
  unfold outcome
  split
  · rename_i hid
    simp [hid, eq_comm]
  · rename_i hid _
    simp [hid]
  · rename_i hid _
    split <;> simp [hid]

theorem outcome_eq_rpc_iff {e : RpcError} :
    r.outcome requestId = .error (.rpc e) ↔ r.id ≠ none ∧ r.error = some e := by
  unfold outcome
  split
  · rename_i hid
    simp [hid]
  · rename_i hid herror
    simp [hid, herror]
  · rename_i herror
    split <;> simp [herror]

theorem outcome_eq_idMismatch_iff :
    (∃ actual, r.outcome requestId = .error (.protocol (.idMismatch requestId actual))) ↔
      r.id ≠ none ∧ r.error = none ∧ r.id ≠ some requestId := by
  unfold outcome
  split
  · rename_i hid
    simp [hid]
  · rename_i herror
    simp [herror]
  · rename_i id hid herror
    split
    · rename_i heq
      simp [hid, heq]
    · rename_i hne
      simp [hid, herror, hne]

theorem outcome_eq_ok_iff {v : Json} :
    r.outcome requestId = .ok v ↔
      r.error = none ∧ r.id = some requestId ∧ v = r.result.getD .null := by
  unfold outcome
  split
  · rename_i hid
    simp [hid]
  · rename_i herror
    simp [herror]
  · rename_i id hid herror
    split
    · rename_i heq
      simp [hid, herror, heq, eq_comm]
    · rename_i hne
      simp [hid, hne]

end Outcomes

end Response

/-! ## The outcome of a reply -/

open Response

/-- A response means what its id, its result and its error mean. -/
theorem receiveBytes_of_isResponse {bytes : Bytes} {members : List (String × Json)}
    {error : Option RpcError} (h : IsResponse bytes members error) (requestId : String) :
    receiveBytes requestId bytes = Response.outcome requestId
      { id := idOf (Json.find? "id" members)
        result := Json.find? "result" members
        error } := by
  rw [receiveBytes, ofBytes_eq_ok_iff.2 ⟨members, error, h, rfl⟩]

/-- The malformed replies are those that are no response. -/
theorem malformed_iff {bytes : Bytes} (requestId : String) :
    (∃ detail, receiveBytes requestId bytes = .error (.protocol (.malformed detail))) ↔
      ¬ ∃ members error, IsResponse bytes members error := by
  constructor
  · intro hleft hresponse
    obtain ⟨detail, hdetail⟩ := hleft
    obtain ⟨members, error, hresponse⟩ := hresponse
    rw [receiveBytes_of_isResponse hresponse] at hdetail
    exact outcome_ne_malformed detail hdetail
  · intro h
    unfold receiveBytes
    split
    · rename_i r hr
      obtain ⟨members, error, hresponse, -⟩ := ofBytes_eq_ok_iff.1 hr
      exact absurd ⟨members, error, hresponse⟩ h
    · rename_i m _
      exact ⟨m.message, rfl⟩

/-- Every reply is classified by its members. -/
theorem receiveBytes_classified {requestId : String}
    (hid : RequestId.isRandomUuid requestId = true) (bytes : Bytes) :
    Classified requestId bytes (receiveBytes requestId bytes) where
  malformed := malformed_iff requestId
  missingId h cause := by
    rw [receiveBytes_of_isResponse h, outcome_eq_missingId_iff, idOf_eq_none_iff]
    rfl
  rpc h e := by
    rw [receiveBytes_of_isResponse h, outcome_eq_rpc_iff, ne_eq, idOf_eq_none_iff]
    rfl
  idMismatch h := by
    rw [receiveBytes_of_isResponse h, outcome_eq_idMismatch_iff, ne_eq, ne_eq, idOf_eq_none_iff,
      idOf_eq_some_iff hid]
    rfl
  success h v := by
    rw [receiveBytes_of_isResponse h, outcome_eq_ok_iff, idOf_eq_some_iff hid]
    rfl

/-- Two objects that agree on the three members of a response mean the same to any request, also
when their error cannot be read. -/
theorem receiveBytes_eq_of_members {bytes bytes' : Bytes} {members members' : List (String × Json)}
    (hread : Json.read bytes = .ok (.object members))
    (hread' : Json.read bytes' = .ok (.object members'))
    (hid : Json.find? "id" members = Json.find? "id" members')
    (herror : Json.find? "error" members = Json.find? "error" members')
    (hresult : Json.find? "result" members = Json.find? "result" members') (requestId : String) :
    receiveBytes requestId bytes = receiveBytes requestId bytes' := by
  simp only [receiveBytes, ofBytes, hread, hread', ofJson, hid, herror, hresult]

/-- What the transport's answer to a request means to its caller, for every request that is sent
and every answer.  A failure of the transport comes back as it is, and no response is taken.  Any
string of bytes is classified, and of an object only three members matter. -/
theorem answer_classified (env : Surroundings) (w : Wire) (method : String) (params : Params)
    (hid : RequestId.isRandomUuid (env.newId w.sent) = true) :
    match w.send env method params with
    | (request, exchange, after) =>
      request = { method, params, id := env.newId w.sent } ∧
      (∀ e, exchange.answer = .error e →
        receive request.id exchange.answer = .error (.transport e) ∧
          after.take exchange.answer = after) ∧
      (∀ bytes, exchange.answer = .ok bytes →
        Classified request.id bytes (receive request.id exchange.answer)) ∧
      ∀ bytes bytes' members members',
        Json.read bytes = .ok (.object members) → Json.read bytes' = .ok (.object members') →
        (∀ name ∈ ["id", "error", "result"],
          Json.find? name members = Json.find? name members') →
        receive request.id (.ok bytes) = receive request.id (.ok bytes') := by
  refine ⟨rfl, ?_, ?_, ?_⟩
  · intro e hanswer
    rw [hanswer]
    exact ⟨rfl, rfl⟩
  · intro bytes hanswer
    rw [hanswer]
    exact receiveBytes_classified hid bytes
  · intro bytes bytes' members members' hread hread' hsame
    exact receiveBytes_eq_of_members hread hread' (hsame "id" (by simp)) (hsame "error" (by simp))
      (hsame "result" (by simp)) _

/-- A number in the place of the id makes a result that of another request. -/
theorem answer_classified_number_id :
    RequestId.isRandomUuid "8c4f2b1e-0d7a-4395-a600-000000000000" = true ∧
      ∃ actual, receive "8c4f2b1e-0d7a-4395-a600-000000000000"
          (.ok (Bytes.utf8 "\x7b\"id\":84\x7d")) =
        .error (.protocol (.idMismatch "8c4f2b1e-0d7a-4395-a600-000000000000" actual)) := by
  have hid : RequestId.isRandomUuid "8c4f2b1e-0d7a-4395-a600-000000000000" = true := by decide
  have hread : Json.read (Bytes.utf8 "\x7b\"id\":84\x7d") =
      .ok (.object [("id", .number (.whole ⟨84, by decide, by decide⟩))]) := by
    cbv
  generalize Bytes.utf8 "\x7b\"id\":84\x7d" = bytes at hread ⊢
  have hresponse : IsResponse bytes _ none :=
    ⟨hread, by simpa [Json.find?] using ReportedError.absent⟩
  have hclassified := (answer_classified
    { newId := fun _ => "8c4f2b1e-0d7a-4395-a600-000000000000"
      transport := fun _ => { answer := .ok bytes } } {} "getinfo" .none hid).2.2.1 bytes rfl
  refine ⟨hid, (hclassified.idMismatch hresponse).2 ⟨?_, rfl, ?_⟩⟩
  · simp [WithoutId, Json.find?]
  · simp [HasId, Json.find?]

/-! ## Results of a known shape -/

section Shape

variable {α : Type} [Shaped α] {method : String} {v : Json}

/-- A result of another shape is refused in the name of its method, and with its kind. -/
theorem decodeResult_eq : decodeResult α method v = (Shaped.decode v).mapError fun fault =>
    .unexpectedShape method (fault.message ++ " (got " ++ v.kind ++ ")") := by
  unfold decodeResult
  cases (Shaped.decode v : Except ShapeFault α) with
  | ok _ => rfl
  | error _ => rfl

theorem decodeResult_eq_ok_iff {a : α} :
    decodeResult α method v = .ok a ↔ Shaped.decode v = .ok a := by
  rw [decodeResult_eq, mapError_eq_ok_iff]

theorem decodeResult_eq_error_iff {e : ProtocolError} :
    decodeResult α method v = .error e ↔ ∃ fault, (Shaped.decode v : Except _ α) = .error fault ∧
      .unexpectedShape method (fault.message ++ " (got " ++ v.kind ++ ")") = e := by
  rw [decodeResult_eq, mapError_eq_error_iff]

end Shape

end DaemonRpc
