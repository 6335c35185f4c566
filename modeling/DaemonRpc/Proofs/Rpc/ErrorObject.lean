import DaemonRpc.Proofs.Json.Canonical
import DaemonRpc.Proofs.Json.Shape
import DaemonRpc.Rpc.ErrorObject

/-!
# Which values are error objects

`RpcError.Describes v e` says without a reader that the value `v` is the error object `e`: a
code that is a whole number of the signed range, a message that is a string or left out, and
data that may be left out.  The three stand in an object under their names or in an array by
their places.

`ofJson_eq_ok_iff` proves that the reader of error objects accepts exactly those values.  It
needs the names of an object to be different, which is so for every value that was read.
-/

namespace DaemonRpc

namespace RpcError

/-! ## Values that are error objects -/

/-- The parts of an error object as they stand in a value, or are left out. -/
structure Parts (code message data : Option Json) (e : RpcError) : Prop where
  code : ∃ n : Whole, code = some (.number (.whole n)) ∧ n.val = e.code.toInt
  message : message = some (.string e.message) ∨ message = none ∧ e.message = ""
  data : data = some .null ∧ e.data = none ∨ data ≠ some .null ∧ data = e.data

/-- A value is an error object: its parts stand under their names or by their places. -/
inductive Describes : Json → RpcError → Prop where
  | object {members : List (String × Json)} {e : RpcError}
      (parts : Parts (Json.find? "code" members) (Json.find? "message" members)
        (Json.find? "data" members) e) : Describes (.object members) e
  | array {items : List Json} {e : RpcError} (short : items.length ≤ 3)
      (parts : Parts items[0]? items[1]? items[2]? e) : Describes (.array items) e

/-- What is known of one part after all members were taken in: what a member of its name says,
and otherwise what was known before. -/
def Settled {α : Type} (decode : Json → Except ShapeFault α) (found : Option Json)
    (before after : Option α) : Prop :=
  match found with
  | none => after = before
  | some v => ∃ a, decode v = .ok a ∧ after = some a

/-- A member in front of others of different names settles its own part, and the others theirs. -/
theorem settled_cons {α : Type} {decode : Json → Except ShapeFault α} {m : String × Json}
    {rest : List (String × Json)} (hm : Json.find? m.1 rest = none) (name : String)
    {before after : Option α} :
    Settled decode (Json.find? name (m :: rest)) before after ↔
      ∃ between, Settled decode (Json.find? name [m]) before between ∧
        Settled decode (Json.find? name rest) between after := by
  obtain ⟨name', v⟩ := m
  simp only [Json.find?]
  by_cases h : name = name'
  · subst h
    simp only [hm, if_true]
    constructor
    · intro hsettled
      exact ⟨after, hsettled, rfl⟩
    · intro hright
      obtain ⟨between, hsettled, rfl⟩ := hright
      exact hsettled
  · simp only [if_neg h]
    constructor
    · intro hsettled
      exact ⟨before, rfl, hsettled⟩
    · intro hright
      obtain ⟨between, rfl, hsettled⟩ := hright
      exact hsettled

/-- One member settles the part of its name and leaves the other parts as they are. -/
theorem member_eq_ok_iff {p q : Partial} {m : String × Json} :
    p.member m = .ok q ↔
      Settled Shaped.decodeInt64 (Json.find? "code" [m]) p.code q.code ∧
        Settled Shaped.decodeString (Json.find? "message" [m]) p.message q.message ∧
        Settled (fun v => .ok (dataOf v)) (Json.find? "data" [m]) p.data q.data := by
  obtain ⟨name, v⟩ := m
  cases p
  cases q
  unfold Partial.member
  simp only [Json.find?]
  by_cases hcode : name = "code"
  · subst hcode
    simp only [Settled, ↓reduceIte, String.reduceEq, bind_eq_ok_iff, pure, Except.pure,
      Except.ok.injEq, Partial.mk.injEq]
    constructor
    · intro hleft
      obtain ⟨code, hread, rfl, rfl, rfl⟩ := hleft
      exact ⟨⟨code, hread, rfl⟩, rfl, rfl⟩
    · intro hright
      obtain ⟨⟨code, hread, rfl⟩, rfl, rfl⟩ := hright
      exact ⟨code, hread, rfl, rfl, rfl⟩
  · by_cases hmessage : name = "message"
    · subst hmessage
      simp only [Settled, ↓reduceIte, String.reduceEq, bind_eq_ok_iff, pure, Except.pure,
        Except.ok.injEq, Partial.mk.injEq]
      constructor
      · intro hleft
        obtain ⟨message, hread, rfl, rfl, rfl⟩ := hleft
        exact ⟨rfl, ⟨message, hread, rfl⟩, rfl⟩
      · intro hright
        obtain ⟨rfl, ⟨message, hread, rfl⟩, rfl⟩ := hright
        exact ⟨message, hread, rfl, rfl, rfl⟩
    · by_cases hdata : name = "data"
      · subst hdata
        simp [Settled, eq_comm]
      · simp [Settled, hcode, hmessage, hdata, Ne.symm hcode, Ne.symm hmessage, Ne.symm hdata,
          eq_comm]

/-- Members with different names are taken in one by one, in any order. -/
theorem foldlM_member_eq_ok_iff {members : List (String × Json)}
    (hnodup : (members.map Prod.fst).Nodup) {p q : Partial} :
    members.foldlM Partial.member p = .ok q ↔
      Settled Shaped.decodeInt64 (Json.find? "code" members) p.code q.code ∧
        Settled Shaped.decodeString (Json.find? "message" members) p.message q.message ∧
        Settled (fun v => .ok (dataOf v)) (Json.find? "data" members) p.data q.data := by
  induction members generalizing p with
  | nil =>
    cases p
    cases q
    simp [Settled, Json.find?, pure, Except.pure, eq_comm]
  | cons m rest ih =>
    rw [List.map_cons, List.nodup_cons] at hnodup
    have hm : Json.find? m.1 rest = none := Json.find?_eq_none_iff.2 hnodup.1
    rw [List.foldlM_cons, bind_eq_ok_iff, settled_cons hm, settled_cons hm, settled_cons hm]
    constructor
    · intro hleft
      obtain ⟨between, hfirst, hrest⟩ := hleft
      obtain ⟨hcode, hmessage, hdata⟩ := member_eq_ok_iff.1 hfirst
      obtain ⟨hcode', hmessage', hdata'⟩ := (ih hnodup.2).1 hrest
      exact ⟨⟨_, hcode, hcode'⟩, ⟨_, hmessage, hmessage'⟩, ⟨_, hdata, hdata'⟩⟩
    · intro hright
      obtain ⟨⟨code, hcode, hcode'⟩, ⟨message, hmessage, hmessage'⟩, ⟨data, hdata, hdata'⟩⟩ :=
        hright
      refine ⟨⟨code, message, data⟩, member_eq_ok_iff.2 ⟨hcode, hmessage, hdata⟩, ?_⟩
      exact (ih hnodup.2).2 ⟨hcode', hmessage', hdata'⟩

/-- Data of `null` are no data, and other data are what they are. -/
theorem dataOf_eq_iff {v : Json} {data : Option Json} :
    dataOf v = data ↔ v = .null ∧ data = none ∨ v ≠ .null ∧ data = some v := by
  cases v with
  | null => simp [dataOf, eq_comm]
  | bool _ => simp [dataOf, eq_comm]
  | number _ => simp [dataOf, eq_comm]
  | string _ => simp [dataOf, eq_comm]
  | array _ => simp [dataOf, eq_comm]
  | object _ => simp [dataOf, eq_comm]

/-! ## Reading them -/

/-- A code has been taken in if it stands in the member, and is then that of the error. -/
theorem settled_code_iff {code : Option Json} {c : Int64} :
    Settled Shaped.decodeInt64 code none (some c) ↔
      ∃ n : Whole, code = some (.number (.whole n)) ∧ n.val = c.toInt := by
  cases code with
  | none => simp [Settled]
  | some v =>
    constructor
    · intro hleft
      obtain ⟨c', hread, hc⟩ := hleft
      obtain rfl := Option.some.inj hc
      obtain ⟨n, rfl, hn⟩ := Shaped.decodeInt64_eq_ok_iff.1 hread
      exact ⟨n, rfl, hn⟩
    · intro hright
      obtain ⟨n, hv, hn⟩ := hright
      obtain rfl := Option.some.inj hv
      exact ⟨c, Shaped.decodeInt64_eq_ok_iff.2 ⟨n, rfl, hn⟩, rfl⟩

/-- A message that is left out is empty. -/
theorem settled_message_iff {message : Option Json} {text : String} :
    (∃ m, Settled Shaped.decodeString message none m ∧ m.getD "" = text) ↔
      message = some (.string text) ∨ message = none ∧ text = "" := by
  cases message with
  | none => simp [Settled, eq_comm]
  | some v =>
    constructor
    · intro hleft
      obtain ⟨m, ⟨read, hread, rfl⟩, rfl⟩ := hleft
      obtain rfl := Shaped.decodeString_eq_ok_iff.1 hread
      exact Or.inl rfl
    · intro hright
      rcases hright with hv | ⟨hv, -⟩
      · obtain rfl := Option.some.inj hv
        exact ⟨some text, ⟨text, rfl, rfl⟩, rfl⟩
      · exact absurd hv (by simp)

/-- Data that are left out are none, and so are data of `null`. -/
theorem settled_data_iff {found data : Option Json} :
    (∃ d, Settled (fun v => .ok (dataOf v)) found none d ∧ d.getD none = data) ↔
      found = some .null ∧ data = none ∨ found ≠ some .null ∧ found = data := by
  cases found with
  | none => simp [Settled]
  | some v =>
    constructor
    · intro hleft
      obtain ⟨d, ⟨read, hread, rfl⟩, rfl⟩ := hleft
      rcases dataOf_eq_iff.1 (Except.ok.inj hread) with ⟨rfl, hnone⟩ | ⟨hne, hsome⟩
      · exact Or.inl ⟨rfl, hnone⟩
      · exact Or.inr ⟨by simpa using hne, hsome.symm⟩
    · intro hdata
      refine ⟨some data, ⟨data, congrArg Except.ok (dataOf_eq_iff.2 ?_), rfl⟩, rfl⟩
      rcases hdata with ⟨hnull, hnone⟩ | ⟨hne, hsome⟩
      · exact Or.inl ⟨Option.some.inj hnull, hnone⟩
      · exact Or.inr ⟨fun hv => hne (congrArg some hv), hsome.symm⟩

/-- The error object whose parts were taken in, if the code is one of them. -/
theorem finish_eq_ok_iff {p : Partial} {e : RpcError} :
    p.finish = .ok e ↔
      p.code = some e.code ∧ p.message.getD "" = e.message ∧ p.data.getD none = e.data := by
  unfold Partial.finish
  cases hcode : p.code with
  | none => simp
  | some c =>
    constructor
    · intro hfinish
      obtain rfl := Except.ok.inj hfinish
      exact ⟨rfl, rfl, rfl⟩
    · intro hright
      obtain ⟨hc, hmessage, hdata⟩ := hright
      obtain rfl := Option.some.inj hc
      simp only [hmessage, hdata]

/-- The parts that were taken in make the error object whose parts they are. -/
theorem settled_finish_iff {code message data : Option Json} {e : RpcError} :
    (∃ p : Partial, (Settled Shaped.decodeInt64 code none p.code ∧
        Settled Shaped.decodeString message none p.message ∧
        Settled (fun v => .ok (dataOf v)) data none p.data) ∧ p.finish = .ok e) ↔
      Parts code message data e := by
  constructor
  · intro hleft
    obtain ⟨p, ⟨hcode, hmessage, hdata⟩, hfinish⟩ := hleft
    obtain ⟨hcode', hmessage', hdata'⟩ := finish_eq_ok_iff.1 hfinish
    rw [hcode'] at hcode
    exact ⟨settled_code_iff.1 hcode, settled_message_iff.1 ⟨_, hmessage, hmessage'⟩,
      settled_data_iff.1 ⟨_, hdata, hdata'⟩⟩
  · intro hright
    obtain ⟨hcode, hmessage, hdata⟩ := hright
    obtain ⟨m, hm, hm'⟩ := settled_message_iff.2 hmessage
    obtain ⟨d, hd, hd'⟩ := settled_data_iff.2 hdata
    exact ⟨⟨some e.code, m, d⟩, ⟨settled_code_iff.2 hcode, hm, hd⟩,
      finish_eq_ok_iff.2 ⟨rfl, hm', hd'⟩⟩

/-- The object that is read from members of different names is the one whose parts they are. -/
theorem ofJson_object_eq_ok_iff {members : List (String × Json)}
    (hnodup : (members.map Prod.fst).Nodup) {e : RpcError} :
    ofJson (.object members) = .ok e ↔ Describes (.object members) e := by
  rw [ofJson, bind_eq_ok_iff]
  simp only [foldlM_member_eq_ok_iff hnodup]
  rw [settled_finish_iff]
  constructor
  · exact Describes.object
  · intro hright
    rcases hright with ⟨parts⟩ | _
    exact parts

/-- The names of the parts, by their places in an array. -/
def partNames : List String := ["code", "message", "data"]

/-- An array of at most three items is read as the object whose members they are. -/
theorem ofJson_array_eq_ok {items : List Json} {e : RpcError} :
    ofJson (.array items) = .ok e ↔
      items.length ≤ 3 ∧ ofJson (.object (partNames.zip items)) = .ok e := by
  rcases items with _ | ⟨code, _ | ⟨message, _ | ⟨data, _ | ⟨more, rest⟩⟩⟩⟩
  · simp [ofJson, partNames, Partial.finish, bind_eq_ok_iff, pure, Except.pure]
  · simp [ofJson, partNames, Partial.finish, Partial.member, bind_eq_ok_iff, pure, Except.pure]
  · simp [ofJson, partNames, Partial.finish, Partial.member, bind_eq_ok_iff, pure, Except.pure]
  · simp [ofJson, partNames, Partial.finish, Partial.member, bind_eq_ok_iff, pure, Except.pure]
  · simp [ofJson, bind_eq_ok_iff]

/-- Under the name of a part stands the item of its place. -/
theorem find?_partNames_zip (items : List Json) :
    Json.find? "code" (partNames.zip items) = items[0]? ∧
      Json.find? "message" (partNames.zip items) = items[1]? ∧
      Json.find? "data" (partNames.zip items) = items[2]? ∧
      ((partNames.zip items).map Prod.fst).Nodup := by
  rcases items with _ | ⟨code, _ | ⟨message, _ | ⟨data, rest⟩⟩⟩
  · simp [partNames, Json.find?]
  · simp [partNames, Json.find?]
  · simp [partNames, Json.find?]
  · simp [partNames, Json.find?]

/-- The parts of an array are read by the places of its items. -/
theorem ofJson_array_eq_ok_iff {items : List Json} {e : RpcError} :
    ofJson (.array items) = .ok e ↔ Describes (.array items) e := by
  obtain ⟨hcode, hmessage, hdata, hnodup⟩ := find?_partNames_zip items
  rw [ofJson_array_eq_ok, ofJson_object_eq_ok_iff hnodup]
  constructor
  · intro hleft
    rcases hleft with ⟨short, ⟨parts⟩ | _⟩
    rw [hcode, hmessage, hdata] at parts
    exact Describes.array short parts
  · intro hright
    rcases hright with _ | ⟨short, parts⟩
    rw [← hcode, ← hmessage, ← hdata] at parts
    exact ⟨short, Describes.object parts⟩

/-- The reader of error objects accepts exactly the values that are error objects. -/
theorem ofJson_eq_ok_iff {v : Json} (hv : v.Canonical) {e : RpcError} :
    ofJson v = .ok e ↔ Describes v e := by
  cases hv with
  | object members sorted each => exact ofJson_object_eq_ok_iff (Json.sorted_names_nodup sorted)
  | array items each => exact ofJson_array_eq_ok_iff
  | null => exact iff_of_false (by simp [ofJson, Shaped.mismatch]) (by intro h; cases h)
  | bool b => exact iff_of_false (by simp [ofJson, Shaped.mismatch]) (by intro h; cases h)
  | number n => exact iff_of_false (by simp [ofJson, Shaped.mismatch]) (by intro h; cases h)
  | string s => exact iff_of_false (by simp [ofJson, Shaped.mismatch]) (by intro h; cases h)

end RpcError

end DaemonRpc
