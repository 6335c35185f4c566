import DaemonRpc.Proofs.Client.Arguments
import DaemonRpc.Proofs.Json.Nearest
import DaemonRpc.Proofs.Json.Written

/-!
# The balances of the accounts

The answer to `listaccounts` is an object with a number for each account.  On its way it goes
through three tables: the members of the reply, the ordered members of the result, and the
balances.  None of them loses an account, makes two of one or changes their order.

* `Tabled` says which accounts belong to the members of an object, as they are written.
* `mem_ordered_iff` and `Balances.decode_eq_ok_iff` are the steps through the tables, and
  `exists_readAccounts_normal_iff` and `tabled_of_readAccounts_normal` the result of a reply.
* `listAccounts_tabled` is the whole call.
-/

namespace DaemonRpc

/-! ## The accounts of an object -/

/-- The accounts that belong to the members of an object: in ascending order of the bytes of their
names, one for each name, and with the double of the number that stands last under it. -/
structure Tabled (members : List (String × Json)) (accounts : List Account) : Prop where
  ascending : (accounts.map fun a => Bytes.utf8 a.name).Pairwise (· < ·)
  names : ∀ name, name ∈ accounts.map (·.name) ↔ name ∈ members.map Prod.fst
  amounts : ∀ a ∈ accounts, ∃ n, Json.findLast? a.name members = some (.number n) ∧
    n.Denotes a.amount ∧ a.confirmations = 0

/-- What stands last under each name is a number. -/
def AllNumbers (members : List (String × Json)) : Prop :=
  ∀ name v, Json.findLast? name members = some v → ∃ n, v = .number n

namespace Balances

theorem entry_eq_ok_iff {m : String × Json} {e : String × Float} :
    entry m = .ok e ↔ ∃ n, m.2 = .number n ∧ e = (m.1, n.toFloat) := by
  rw [entry, map_eq_ok_iff]
  simp only [Shaped.decodeFloat_eq_ok_iff]
  constructor
  · rintro ⟨x, ⟨n, hn, rfl⟩, rfl⟩
    exact ⟨n, hn, rfl⟩
  · rintro ⟨n, hn, rfl⟩
    exact ⟨n.toFloat, ⟨n, hn, rfl⟩, rfl⟩

/-- A table is read from an object, member by member. -/
theorem decode_eq_ok_iff {v : Json} {b : Balances} :
    Shaped.decode v = .ok b ↔
      ∃ members, v = .object members ∧ members.mapM entry = .ok b.entries := by
  cases v with
  | object members =>
    refine map_eq_ok_iff.trans ⟨?_, ?_⟩
    · rintro ⟨entries, hentries, rfl⟩
      exact ⟨members, rfl, hentries⟩
    · rintro ⟨_, hmembers, hentries⟩
      obtain rfl := Json.object.inj hmembers
      exact ⟨b.entries, hentries, rfl⟩
  | _ => simp [Shaped.decode, Shaped.mismatch]

/-- The entries of a table have the names of the members. -/
theorem map_fst_eq {members : List (String × Json)} {entries : List (String × Float)}
    (h : List.Forall₂ (fun m e => entry m = .ok e) members entries) :
    entries.map Prod.fst = members.map Prod.fst := by
  induction h with
  | nil => rfl
  | cons hentry _ ih =>
    obtain ⟨n, -, rfl⟩ := entry_eq_ok_iff.1 hentry
    rw [List.map_cons, List.map_cons, ih]

/-- The amount of an entry is the number of a member. -/
theorem exists_number_of_mem {members : List (String × Json)} {entries : List (String × Float)}
    (h : List.Forall₂ (fun m e => entry m = .ok e) members entries) {e : String × Float}
    (he : e ∈ entries) : ∃ n, (e.1, .number n) ∈ members ∧ e.2 = n.toFloat := by
  induction h with
  | nil => simp at he
  | cons hentry _ ih =>
    rcases List.mem_cons.1 he with rfl | he
    · obtain ⟨n, hn, rfl⟩ := entry_eq_ok_iff.1 hentry
      exact ⟨n, by rw [← hn]; exact List.mem_cons_self, rfl⟩
    · obtain ⟨n, hn, hamount⟩ := ih he
      exact ⟨n, List.mem_cons_of_mem _ hn, hamount⟩

end Balances

/-! ## The result of a reply -/

section Result

variable {members ordered : List (String × Json)}

/-- In an ordered object stands one member for each name, with what stands last under it. -/
theorem mem_ordered_iff (hsorted : Json.Sorted ordered)
    (hfind : ∀ name, Json.find? name ordered = (Json.findLast? name members).map Json.normal)
    {m : String × Json} :
    m ∈ ordered ↔ ∃ v, Json.findLast? m.1 members = some v ∧ v.normal = m.2 := by
  rw [← Option.map_eq_some_iff, ← hfind]
  constructor
  · exact Json.find?_of_mem (Json.sorted_names_nodup hsorted)
  · exact Json.mem_of_find?

theorem normal_eq_number_iff {v : Json} {n : Number} : v.normal = .number n ↔ v = .number n := by
  cases v with
  | _ => simp [Json.normal, Json.ofMembers]

/-- The members of an ordered object are numbers if what stands last under each name is one. -/
theorem allNumbers_iff (hsorted : Json.Sorted ordered)
    (hfind : ∀ name, Json.find? name ordered = (Json.findLast? name members).map Json.normal) :
    (∀ m ∈ ordered, ∃ e, Balances.entry m = .ok e) ↔ AllNumbers members := by
  simp only [Balances.entry_eq_ok_iff, mem_ordered_iff hsorted hfind]
  constructor
  · intro h name v hv
    obtain ⟨_, n, hn, -⟩ := h (name, v.normal) ⟨v, hv, rfl⟩
    exact ⟨n, normal_eq_number_iff.1 hn⟩
  · rintro h m ⟨v, hv, hm⟩
    obtain ⟨n, rfl⟩ := h m.1 v hv
    exact ⟨_, n, hm.symm, rfl⟩

/-- The accounts that are read from an ordered object are those of its members. -/
theorem tabled_of_mapM (hsorted : Json.Sorted ordered)
    (hfind : ∀ name, Json.find? name ordered = (Json.findLast? name members).map Json.normal)
    {b : Balances} (h : ordered.mapM Balances.entry = .ok b.entries) :
    Tabled members (Operation.accountsOf b) := by
  have hentries := mapM_eq_ok_iff.1 h
  have hnames : (Operation.accountsOf b).map (·.name) = ordered.map Prod.fst := by
    rw [← Balances.map_fst_eq hentries, Operation.accountsOf, List.map_map]
    rfl
  refine ⟨?_, fun name => ?_, fun a ha => ?_⟩
  · have hascending := (Json.sorted_names hsorted).map Bytes.utf8 fun _ _ => Bytes.utf8_lt
    rw [← hnames, List.map_map] at hascending
    exact hascending
  · -- a name is missing on one side if it is on the other
    rw [hnames, ← not_iff_not, ← Json.find?_eq_none_iff, hfind, Option.map_eq_none_iff,
      Json.findLast?_eq_none_iff]
  · obtain ⟨e, he, rfl⟩ := List.mem_map.1 ha
    obtain ⟨n, hn, hamount⟩ := Balances.exists_number_of_mem hentries he
    obtain ⟨v, hv, hnumber⟩ := (mem_ordered_iff hsorted hfind).1 hn
    obtain rfl := normal_eq_number_iff.1 hnumber
    exact ⟨n, hv, Number.toFloat_eq_iff.1 hamount.symm, rfl⟩

/-- The accounts of a result. -/
def readAccounts (v : Json) : Except ShapeFault (List Account) :=
  (Shaped.decode v).map Operation.accountsOf

/-- Accounts are read from an object, member by member. -/
theorem readAccounts_eq_ok_iff {v : Json} {accounts : List Account} :
    readAccounts v = .ok accounts ↔ ∃ b : Balances,
      (∃ ordered, v = .object ordered ∧ ordered.mapM Balances.entry = .ok b.entries) ∧
        Operation.accountsOf b = accounts := by
  rw [readAccounts, map_eq_ok_iff]
  simp only [Balances.decode_eq_ok_iff]

/-- Accounts can be read from a result exactly if it is an object with a number under each name. -/
theorem exists_readAccounts_normal_iff (v : Json) :
    (∃ accounts, readAccounts v.normal = .ok accounts) ↔
      ∃ members, v = .object members ∧ AllNumbers members := by
  simp only [readAccounts_eq_ok_iff]
  cases v with
  | object members =>
    obtain ⟨ordered, hnormal, hsorted, hfind⟩ := Json.exists_normal_object members
    rw [hnormal]
    constructor
    · intro h
      obtain ⟨_, b, ⟨_, hordered, hb⟩, -⟩ := h
      obtain rfl := Json.object.inj hordered
      have hall := exists_mapM_eq_ok_iff.1 ⟨_, hb⟩
      exact ⟨members, rfl, (allNumbers_iff hsorted hfind).1 hall⟩
    · intro h
      obtain ⟨_, hmembers, hall⟩ := h
      obtain rfl := Json.object.inj hmembers
      obtain ⟨entries, hentries⟩ :=
        exists_mapM_eq_ok_iff.2 ((allNumbers_iff hsorted hfind).2 hall)
      exact ⟨_, ⟨entries⟩, ⟨ordered, rfl, hentries⟩, rfl⟩
  | _ => simp [Json.normal]

/-- What is read from an object are the accounts of its members. -/
theorem tabled_of_readAccounts_normal {accounts : List Account}
    (h : readAccounts (Json.object members).normal = .ok accounts) : Tabled members accounts := by
  obtain ⟨ordered, hnormal, hsorted, hfind⟩ := Json.exists_normal_object members
  rw [hnormal, readAccounts_eq_ok_iff] at h
  obtain ⟨b, ⟨_, hordered, hb⟩, rfl⟩ := h
  obtain rfl := Json.object.inj hordered
  exact tabled_of_mapM hsorted hfind hb

end Result

/-! ## The call -/

/-- A success reply hands on its result, put into order. -/
theorem receive_of_written {bytes : Bytes} {reply : List (String × Json)} {id : String}
    (hwritten : Json.written bytes = .ok (.object reply))
    (hid : Json.findLast? "id" reply = some (.string id))
    (herror : Json.findLast? "error" reply = none ∨ Json.findLast? "error" reply = some .null) :
    receive id (.ok bytes) = .ok ((Json.findLast? "result" reply).getD .null).normal := by
  obtain ⟨ordered, hnormal, -, hfind⟩ := Json.exists_normal_object reply
  have hread : Json.read bytes = .ok (.object ordered) := by
    rw [Json.read_eq, hwritten]
    exact congrArg Except.ok hnormal
  have hreported : ReportedError (Json.find? "error" ordered) none := by
    rw [hfind]
    rcases herror with h | h
    · rw [h]
      exact .absent
    · rw [h]
      exact .null
  rw [receive, receiveBytes_of_isResponse ⟨hread, hreported⟩, Response.outcome_eq_ok_iff]
  refine ⟨rfl, ?_, ?_⟩
  · show Response.idOf (Json.find? "id" ordered) = some id
    rw [hfind, hid]
    rfl
  · show _ = (Json.find? "result" ordered).getD .null
    rw [hfind]
    cases Json.findLast? "result" reply with
    | none => rfl
    | some _ => rfl

namespace Session

/-- The call for the balances, for every success reply, as it is written.  It succeeds exactly if
the result is an object with a number under each name, and then the accounts are those of the
object.  Otherwise the result is refused in the name of the method, and with its kind. -/
theorem listAccounts_tabled (env : Surroundings) (s : Session) (confirms : Int64) {bytes : Bytes}
    {reply : List (String × Json)}
    (hanswer : (env.transport (sentOver env s.wire "listaccounts"
      (Operation.listAccounts confirms).params)).answer = .ok bytes)
    (hwritten : Json.written bytes = .ok (.object reply))
    (hid : Json.findLast? "id" reply = some (.string (env.newId s.wire.sent)))
    (herror : Json.findLast? "error" reply = none ∨ Json.findLast? "error" reply = some .null) :
    ∃ outcome : Except Error (List Account),
      (∀ n, (run env (n + 3) { call := .operation (.listAccounts confirms) } s).1 =
        ⟨.operation (.listAccounts confirms), .done outcome⟩) ∧
      ((∃ accounts, outcome = .ok accounts) ↔
        ∃ members, Json.findLast? "result" reply = some (.object members) ∧
          AllNumbers members) ∧
      (∀ accounts members, outcome = .ok accounts →
        Json.findLast? "result" reply = some (.object members) → Tabled members accounts) ∧
      (∀ e, outcome = .error e → ∃ kind,
        ((Json.findLast? "result" reply).getD .null).HasKind kind ∧ ∃ fault : ShapeFault,
          e = .protocol
            (.unexpectedShape "listaccounts" (fault.message ++ " (got " ++ kind ++ ")"))) := by
  obtain ⟨outcome, hconcluded, hrun⟩ := (conducted env s (.listAccounts confirms)).outcome
  change Concluded "listaccounts" readAccounts (receive _ (env.transport
    (sentOver env s.wire "listaccounts" (Operation.listAccounts confirms).params)).answer) outcome
    at hconcluded
  obtain ⟨result, hresult⟩ : ∃ v, v = (Json.findLast? "result" reply).getD .null := ⟨_, rfl⟩
  rw [hanswer, receive_of_written hwritten hid herror, ← hresult] at hconcluded
  refine ⟨outcome, hrun, ?_, ?_, ?_⟩
  · simp only [hconcluded.eq_ok_iff]
    rw [exists_readAccounts_normal_iff, hresult]
    cases Json.findLast? "result" reply with
    | none => simp
    | some _ => simp
  · intro accounts members haccounts hmembers
    rw [hconcluded.eq_ok_iff, hresult, hmembers] at haccounts
    exact tabled_of_readAccounts_normal haccounts
  · intro e he
    obtain ⟨kind, hkind, hfault⟩ := hconcluded.exists_of_eq_error he
    rw [Json.hasKind_iff, Json.kind_normal, ← Json.hasKind_iff, hresult] at hkind
    exact ⟨kind, hkind, hfault⟩

/-- A reply whose result has a name twice, and another in between that comes before it. -/
theorem listAccounts_tabled_repeated :
    let members : List (String × Json) := [("b", .number (.whole ⟨2, by decide, by decide⟩)),
      ("a", .number (.whole ⟨1, by decide, by decide⟩)),
      ("b", .number (.whole ⟨3, by decide, by decide⟩))]
    let env : Surroundings :=
      { newId := fun _ => "7"
        transport := fun _ => { answer := .ok (Bytes.utf8
          "\x7b\"result\":\x7b\"b\":2,\"a\":1,\"b\":3\x7d,\"error\":null,\"id\":\"7\"\x7d") } }
    let s : Session :=
      { client := { config := .ofChanges default "" "" [], status := Model.absent DaemonStatus,
                    process := none }
        wire := {} }
    ∃ accounts, Tabled members accounts ∧
      ∀ n, (run env (n + 3) { call := .operation (.listAccounts 1) } s).1 =
        ⟨.operation (.listAccounts 1), .done (.ok accounts)⟩ := by
  intro members env s
  have hwritten : Json.written (Bytes.utf8
      "\x7b\"result\":\x7b\"b\":2,\"a\":1,\"b\":3\x7d,\"error\":null,\"id\":\"7\"\x7d") =
      .ok (.object [("result", .object members), ("error", .null), ("id", .string "7")]) := by
    cbv
  obtain ⟨outcome, houtcome, hsucceeds, htabled, -⟩ :=
    listAccounts_tabled env s 1 rfl hwritten rfl (Or.inr rfl)
  have hall : AllNumbers members := by
    intro name v hv
    have hmem := Json.mem_of_findLast? hv
    simp only [members, List.mem_cons, Prod.mk.injEq, List.not_mem_nil, or_false] at hmem
    rcases hmem with ⟨-, rfl⟩ | ⟨-, rfl⟩ | ⟨-, rfl⟩
    · exact ⟨_, rfl⟩
    · exact ⟨_, rfl⟩
    · exact ⟨_, rfl⟩
  obtain ⟨accounts, rfl⟩ := hsucceeds.2 ⟨members, rfl, hall⟩
  exact ⟨accounts, htabled accounts members rfl rfl, houtcome⟩

end Session

end DaemonRpc
