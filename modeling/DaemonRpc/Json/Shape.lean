import DaemonRpc.Json.Printer
import DaemonRpc.Text.Quoted

/-!
# Values of a known shape

A result is a JSON value that should have a certain shape: a whole number, a text, a list, a
record.  `Shaped α` reads a value as an `α`, or names the first thing that does not fit, and
writes an `α` as a value.

`ShapeFault` is what does not fit.  Its message names what was found, as `Found` describes
it, and what was wanted.
-/

namespace DaemonRpc

/-- What stands where something of another shape was wanted. -/
inductive Found where
  | bool (b : Bool)
  | integer (n : Int)
  | double (x : Float)
  | string (s : String)
  | null
  | sequence
  | map
deriving DecidableEq

/-- The description of a value by its outermost part. -/
def Found.ofJson : Json → Found
  | .null => .null
  | .bool b => .bool b
  | .number (.whole n) => .integer n.val
  | .number (.double x) => .double x
  | .string s => .string s
  | .array _ => .sequence
  | .object _ => .map

/-- What was found, in words. -/
def Found.message : Found → String
  | .bool b => "boolean `" ++ (if b then "true" else "false") ++ "`"
  | .integer n => "integer `" ++ toString n ++ "`"
  | .double x => "floating point `" ++ String.ofList (NumberFormat.wire.floatChars x) ++ "`"
  | .string s => "string " ++ Text.quote s
  | .null => "null"
  | .sequence => "sequence"
  | .map => "map"

/-- Why a value does not have the wanted shape. -/
inductive ShapeFault where
  | wrongType (found : Found) (wanted : String)
  | wrongValue (found : Found) (wanted : String)
  | wrongLength (length : Nat) (wanted : String)
  | missingField (name : String)
  | duplicateField (name : String)
deriving DecidableEq

/-- The fault in words. -/
def ShapeFault.message : ShapeFault → String
  | .wrongType found wanted => "invalid type: " ++ found.message ++ ", expected " ++ wanted
  | .wrongValue found wanted => "invalid value: " ++ found.message ++ ", expected " ++ wanted
  | .wrongLength length wanted => s!"invalid length {length}, expected " ++ wanted
  | .missingField name => "missing field `" ++ name ++ "`"
  | .duplicateField name => "duplicate field `" ++ name ++ "`"

/-- Types whose values are written as JSON values and read back from them. -/
class Shaped (α : Type) where
  decode : Json → Except ShapeFault α
  encode : α → Json

namespace Shaped

/-- The fault of a value of another type. -/
def mismatch {α : Type} (v : Json) (wanted : String) : Except ShapeFault α :=
  .error (.wrongType (.ofJson v) wanted)

/-- A whole number that fits a signed word. -/
def decodeInt64 : Json → Except ShapeFault Int64
  | .number (.whole n) =>
    if n.val < 0x8000_0000_0000_0000 then .ok (Int64.ofInt n.val)
    else .error (.wrongValue (.integer n.val) "i64")
  | v => mismatch v "i64"

/-- A whole number that fits an unsigned word. -/
def decodeUInt64 : Json → Except ShapeFault UInt64
  | .number (.whole n) =>
    if 0 ≤ n.val then .ok n.val.toNat.toUInt64 else .error (.wrongValue (.integer n.val) "u64")
  | v => mismatch v "u64"

/-- Any number, as the nearest double. -/
def decodeFloat : Json → Except ShapeFault Float
  | .number n => .ok n.toFloat
  | v => mismatch v "f64"

/-- A truth value. -/
def decodeBool : Json → Except ShapeFault Bool
  | .bool b => .ok b
  | v => mismatch v "a boolean"

/-- A text. -/
def decodeString : Json → Except ShapeFault String
  | .string s => .ok s
  | v => mismatch v "a string"

/-- A text, or `null` for none. -/
def decodeOptionString : Json → Except ShapeFault (Option String)
  | .null => .ok none
  | v => (decodeString v).map some

/-- An array all of whose items have one shape. -/
def decodeList {α : Type} (item : Json → Except ShapeFault α) :
    Json → Except ShapeFault (List α)
  | .array items => items.mapM item
  | v => mismatch v "a sequence"

instance : Shaped Int64 := ⟨decodeInt64, .ofInt64⟩
instance : Shaped UInt64 := ⟨decodeUInt64, fun n => .number (.whole (.ofUInt64 n))⟩
instance : Shaped Float := ⟨decodeFloat, .ofFloat⟩
instance : Shaped Bool := ⟨decodeBool, .bool⟩
instance : Shaped String := ⟨decodeString, .string⟩
instance : Shaped (Option String) := ⟨decodeOptionString, fun s => s.elim .null .string⟩
instance : Shaped Json := ⟨.ok, id⟩

/-- The empty answer; it is written as `null` and any value will do for it. -/
instance : Shaped Unit := ⟨fun _ => .ok (), fun _ => .null⟩

instance {α : Type} [Shaped α] : Shaped (List α) where
  decode := decodeList decode
  encode xs := .array (xs.map encode)

end Shaped

/-! ## Balances -/

/-- Amounts by name, in ascending order of names. -/
structure Balances where
  entries : List (String × Float)
deriving DecidableEq

namespace Balances

/-- Reads the amount of a member. -/
def entry (m : String × Json) : Except ShapeFault (String × Float) :=
  (Shaped.decodeFloat m.2).map (m.1, ·)

instance : Shaped Balances where
  decode
    | .object members => (members.mapM entry).map Balances.mk
    | v => Shaped.mismatch v "a map"
  encode b := .object (b.entries.map fun e => (e.1, .ofFloat e.2))

end Balances

end DaemonRpc
