import DaemonRpc.Proofs.CommandLine.Run
import DaemonRpc.Proofs.Json.RoundTrip
import DaemonRpc.Proofs.Rpc.Response

/-!
# What the command line passes on unchanged

The parameters of a command line are words, and a result goes to the output as lines of text.
Neither of them loses anything.

* `StandsFor` is the parameter that a word means.  `forall₂_standsFor` has them one by one, and
  `readParam_text` is the way back from the text of a value.
* `receive_spec` says of every result that it is as the reader builds it, so that `ofText?_printed`
  applies to it.
* `run_lossless` is all of this in one run.
-/

namespace DaemonRpc

namespace Json

theorem ofText?_of_read {s : String} {v : Json} (h : read (Bytes.utf8 s) = .ok v) :
    ofText? s = some v := by
  rw [ofText?, h]
  rfl

/-- The text of a value is read as that value. -/
theorem ofText?_text {v : Json} (hcanonical : v.Canonical) (hwhole : v.WholeNumbers)
    (hdepth : v.DepthAtMost depthLimit) : ofText? v.text = some v := by
  apply ofText?_of_read
  rw [read_text hdepth hwhole, normal_eq_self hcanonical]

/-- What stands in an object is not as deep as the object. -/
theorem DepthAtMost.find? {n : Nat} {name : String} {value : Json}
    {members : List (String × Json)} (h : DepthAtMost n (.object members))
    (hfind : Json.find? name members = some value) : DepthAtMost n value := by
  cases h with
  | object n _ each => exact (each (name, value) (mem_of_find? hfind)).mono (Nat.le_succ n)

end Json

/-- A result is as the reader builds it, whatever reply it came with. -/
theorem receive_spec {requestId : String} {answer : Except TransportError Bytes} {result : Json}
    (h : receive requestId answer = .ok result) :
    result.Canonical ∧ result.DepthAtMost Json.depthLimit := by
  cases answer with
  | error e => exact absurd h (by simp [receive])
  | ok bytes =>
    simp only [receive, receiveBytes] at h
    cases hread : Response.ofBytes bytes with
    | error m =>
      rw [hread] at h
      exact absurd h (by simp)
    | ok r =>
      rw [hread] at h
      obtain ⟨members, error, hresponse, rfl⟩ := Response.ofBytes_eq_ok_iff.1 hread
      obtain ⟨-, -, rfl⟩ := Response.outcome_eq_ok_iff.1 h
      have hcanonical := Json.read_canonical hresponse.object
      have hdepth := Json.read_depthAtMost hresponse.object
      show ((Json.find? "result" members).getD .null).Canonical ∧ _
      cases hfind : Json.find? "result" members with
      | none => exact ⟨.null, .null _⟩
      | some v => exact ⟨hcanonical.find? hfind, hdepth.find? hfind⟩

namespace CommandLine

/-! ## Words and values -/

/-- The parameter that a word means: the value that the word is the text of, and if there is no
such value the word itself. -/
structure StandsFor (word : String) (v : Json) : Prop where
  value : ∀ u, Json.ofText? word = some u → v = u
  word : Json.ofText? word = none → v = .string word

theorem standsFor_readParam (word : String) : StandsFor word (readParam word) := by
  constructor
  · intro u hu
    rw [readParam, hu]
    rfl
  · intro hnone
    rw [readParam, hnone]
    rfl

/-- The text of a value is the word for it. -/
theorem readParam_text {v : Json} (hcanonical : v.Canonical) (hwhole : v.WholeNumbers)
    (hdepth : v.DepthAtMost Json.depthLimit) : readParam v.text = v := by
  rw [readParam, Json.ofText?_text hcanonical hwhole hdepth]
  rfl

theorem readParams_of_ne_nil {words : List String} (h : words ≠ []) :
    readParams words = .positional (words.map readParam) := by
  rw [readParams, if_neg (by simpa using h)]

/-- Word by word, the parameters are what the words stand for. -/
theorem forall₂_standsFor (words : List String) :
    List.Forall₂ StandsFor words (words.map readParam) := by
  induction words with
  | nil => exact .nil
  | cons word words ih => exact .cons (standsFor_readParam word) ih

/-- There are no parameters exactly when there are no words. -/
theorem toJson_readParams_eq_null_iff {words : List String} :
    (readParams words).toJson = .null ↔ words = [] := by
  by_cases h : words = []
  · subst h
    exact ⟨fun _ => rfl, fun _ => rfl⟩
  · rw [readParams_of_ne_nil h]
    simp [Params.toJson, h]

/-- What is printed for a result is the text of that result, over several lines. -/
theorem ofText?_printed {result : Json} (hcanonical : result.Canonical)
    (hwhole : result.WholeNumbers) (hdepth : result.DepthAtMost Json.depthLimit) :
    Json.ofText? (printed result) = some result := by
  apply Json.ofText?_of_read
  rw [printed, Json.read_indentedText hdepth hwhole, Json.normal_eq_self hcanonical]

/-! ## Runs -/

variable {a : Arguments} {env : Surroundings} {s : Session} {name : String} {params : Params}

/-- A call by name does not touch the parameters. -/
theorem params_of_route {method name : String} {params params' : Params}
    (h : (Call.byName method params).route = .ok (name, params')) : params' = params := by
  have hcatalogued : ∀ m, Call.catalogued m params = .ok (name, params') → params' = params := by
    intro m hm
    unfold Call.catalogued at hm
    split at hm
    · exact (Prod.mk.inj (Except.ok.inj hm)).2.symm
    · exact absurd hm (by simp)
  simp only [Call.route] at h
  split at h
  · exact hcatalogued _ h
  · exact (Prod.mk.inj (Except.ok.inj h)).2.symm

/-- After the requests of the establishment a run sends its call, if that goes anywhere. -/
theorem exists_invoke_requests (hroute : (Call.byName a.method (readParams a.params)).route =
    .ok (name, params)) :
    ∃ rest, (invoke env a s).requests = s.wire.requests.map Prod.fst ++
      (Session.sentOver env s.wire name params).request :: rest := by
  cases houtcome : calledOutcome env s name params with
  | error e => exact ⟨[], (invoke_of_error hroute houtcome).1⟩
  | ok result =>
    cases hprocess : s.client.process.isSome with
    | false => exact ⟨[], (invoke_of_none hroute houtcome hprocess).1⟩
    | true => exact ⟨[_], (invoke_of_some hroute houtcome hprocess).1⟩

/-- What a run prints for a result does not depend on what comes after it. -/
theorem stdout_invoke (hroute : (Call.byName a.method (readParams a.params)).route =
    .ok (name, params)) {result : Json} (houtcome : calledOutcome env s name params = .ok result) :
    (invoke env a s).stdout = printed result := by
  cases hprocess : s.client.process.isSome with
  | false => exact (invoke_of_none hroute houtcome hprocess).2.1
  | true => exact (invoke_of_some hroute houtcome hprocess).2.1

/-- The parameters and the result of a run of the command line, for all words that are understood.

There are no parameters exactly if there are no words; otherwise there is one for each word, and it
is what the word stands for.  Values given by their texts are the parameters.  A run that gets to a
client sends these parameters after its probes, unless the method is not supported, and every
result in whole numbers, from whatever reply, is read back from what the run prints, whether or not
a launched daemon can be stopped after it. -/
theorem run_lossless (c : Circumstances) {words : List String} {a : Arguments}
    (hwords : Arguments.ofWords c.environment words = .ok a) :
    ((readParams a.params).toJson = .null ↔ a.params = []) ∧
    (a.params ≠ [] → ∃ items, readParams a.params = .positional items ∧
      List.Forall₂ StandsFor a.params items) ∧
    (∀ vs : List Json, vs ≠ [] →
      (∀ v ∈ vs, v.Canonical ∧ v.WholeNumbers ∧ v.DepthAtMost Json.depthLimit) →
      readParams (vs.map Json.text) = .positional vs) ∧
    ∀ env s, Connects c a env s → ∀ name params,
      (Call.byName a.method (readParams a.params)).route = .ok (name, params) →
      params = readParams a.params ∧
      (∃ rest, (run c words).requests = s.wire.requests.map Prod.fst ++
        { method := name, params, id := env.newId s.wire.sent } :: rest) ∧
      ∀ result, calledOutcome env s name params = .ok result → result.WholeNumbers →
        Json.ofText? (run c words).stdout = some result := by
  refine ⟨toJson_readParams_eq_null_iff, ?_, ?_, ?_⟩
  · intro hsome
    exact ⟨_, readParams_of_ne_nil hsome, forall₂_standsFor a.params⟩
  · intro vs hsome hvs
    have hback : ∀ v ∈ vs, (readParam ∘ Json.text) v = id v := by
      intro v hv
      obtain ⟨hcanonical, hwhole, hdepth⟩ := hvs v hv
      exact readParam_text hcanonical hwhole hdepth
    rw [readParams_of_ne_nil (by simpa using hsome), List.map_map, List.map_congr_left hback,
      List.map_id]
  · intro env s hconnects name params hroute
    rw [run_of_connects hwords hconnects]
    refine ⟨params_of_route hroute, exists_invoke_requests hroute, ?_⟩
    intro result houtcome hwhole
    obtain ⟨hcanonical, hdepth⟩ := receive_spec houtcome
    rw [stdout_invoke hroute houtcome]
    exact ofText?_printed hcanonical hwhole hdepth

/-- A value and a word that is none, to a daemon that answers with an empty string. -/
theorem run_lossless_echo :
    let words := ["-u", "u", "--password", "p", "echo", "[1]", "x"]
    let c := reachedBy Session.acknowledging
    ∃ a, Arguments.ofWords c.environment words = .ok a ∧
      readParams a.params =
        .positional [.array [.number (.whole ⟨1, by decide, by decide⟩)], .string "x"] ∧
      ∃ s, Connects c a Session.acknowledging s ∧
        calledOutcome Session.acknowledging s "echo" (readParams a.params) = .ok (.string "") ∧
        Json.ofText? (run c words).stdout = some (.string "") := by
  intro words c
  have hwords : Arguments.ofWords c.environment words = .ok (plain none "echo" ["[1]", "x"]) := rfl
  obtain ⟨s, hconnects, -⟩ := exists_connects_plain Session.acknowledging (fun _ => rfl)
    Session.receive_emptyMessage none "echo" ["[1]", "x"]
  obtain ⟨-, hparams, -, hrun⟩ := run_lossless c hwords
  obtain ⟨items, hitems, hstand⟩ := hparams (by decide)
  obtain _ | ⟨hfirst, _ | ⟨hsecond, ⟨⟩⟩⟩ := hstand
  have hvalue : Json.ofText? "[1]" =
      some (.array [.number (.whole ⟨1, by decide, by decide⟩)]) := by
    cbv
  have hroute : (Call.byName "echo" (readParams ["[1]", "x"])).route =
      .ok ("echo", readParams ["[1]", "x"]) := by
    have hname : Method.ofName? "echo" = none := by
      decide +kernel
    rw [Call.route, hname]
  refine ⟨_, hwords, ?_, s, hconnects, Session.receive_emptyMessage, ?_⟩
  · rw [hitems, hfirst.value _ hvalue, hsecond.word (by cbv)]
  · exact (hrun _ s hconnects "echo" _ hroute).2.2 _ Session.receive_emptyMessage (.string "")

end CommandLine

end DaemonRpc
