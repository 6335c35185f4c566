import DaemonRpc.Json.Shape
import DaemonRpc.Proofs.Except

/-!
# Which values have a shape

Each reader of a single shape accepts certain values and no others.  The lemmas here name them, so
that proofs about records and lists need not open the readers.

`Json.HasKind` are the six kinds of value by their names, as they stand in a refusal.
-/

namespace DaemonRpc

/-- A value is of the kind of the given name. -/
inductive Json.HasKind : Json → String → Prop where
  | null : HasKind .null "null"
  | boolean (b : Bool) : HasKind (.bool b) "boolean"
  | number (n : Number) : HasKind (.number n) "number"
  | string (s : String) : HasKind (.string s) "string"
  | array (items : List Json) : HasKind (.array items) "array"
  | object (members : List (String × Json)) : HasKind (.object members) "object"

theorem Json.hasKind_kind (v : Json) : v.HasKind v.kind := by
  cases v with
  | null => exact .null
  | bool b => exact .boolean b
  | number n => exact .number n
  | string s => exact .string s
  | array items => exact .array items
  | object members => exact .object members

/-- A value is of one kind only. -/
theorem Json.hasKind_iff {v : Json} {kind : String} : v.HasKind kind ↔ v.kind = kind := by
  constructor
  · intro h
    cases h with
    | _ => rfl
  · rintro rfl
    exact v.hasKind_kind

namespace Shaped

theorem decodeInt64_eq_ok_iff {v : Json} {c : Int64} :
    Shaped.decodeInt64 v = .ok c ↔ ∃ n : Whole, v = .number (.whole n) ∧ n.val = c.toInt := by
  constructor
  · intro h
    unfold Shaped.decodeInt64 at h
    split at h
    · rename_i n
      split at h
      · rename_i hlt
        obtain rfl : Int64.ofInt n.val = c := by simpa using h
        refine ⟨n, rfl, ?_⟩
        have hlow := n.lower
        rw [Int64.toInt_ofInt_of_le (by omega) (by omega)]
      · simp at h
    · simp [Shaped.mismatch] at h
  · intro hright
    obtain ⟨n, rfl, hn⟩ := hright
    have hlt := c.toInt_lt
    rw [Shaped.decodeInt64, if_pos (by omega), hn, Int64.ofInt_toInt]

theorem decodeFloat_eq_ok_iff {v : Json} {x : Float} :
    decodeFloat v = .ok x ↔ ∃ n : Number, v = .number n ∧ n.toFloat = x := by
  cases v <;> simp [decodeFloat, mismatch]

theorem decodeBool_eq_ok_iff {v : Json} {b : Bool} : decodeBool v = .ok b ↔ v = .bool b := by
  cases v <;> simp [decodeBool, mismatch]

theorem decodeString_eq_ok_iff {v : Json} {s : String} :
    Shaped.decodeString v = .ok s ↔ v = .string s := by
  cases v <;> simp [decodeString, mismatch]

theorem decodeOptionString_eq_ok_iff {v : Json} {s : Option String} :
    decodeOptionString v = .ok s ↔
      v = .null ∧ s = none ∨ ∃ text, v = .string text ∧ s = some text := by
  cases v <;> simp [decodeOptionString, decodeString, mismatch, Except.map, eq_comm]

theorem decodeList_eq_ok_iff {α : Type} {item : Json → Except ShapeFault α} {v : Json}
    {xs : List α} :
    decodeList item v = .ok xs ↔
      ∃ items, v = .array items ∧ List.Forall₂ (fun u x => item u = .ok x) items xs := by
  cases v <;> simp [decodeList, mismatch, mapM_eq_ok_iff]

end Shaped

end DaemonRpc
