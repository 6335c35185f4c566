/-!
# JSON values

`Json` is the value that requests, replies and reports are made of.  A number is either a
whole number that fits one of the two 64-bit ranges or a double, and the two never meet:
`1` and `1.0` are different values.

The members of an object are a list.  `ofMembers` builds the list that a reader builds: the
names in ascending order, each once, the last value of a repeated name.  `Canonical` says
that every object inside a value is in that form.
-/

namespace DaemonRpc

/-- A whole number that fits a signed or an unsigned 64-bit word. -/
structure Whole where
  val : Int
  lower : -0x8000_0000_0000_0000 ≤ val := by decide
  upper : val < 0x1_0000_0000_0000_0000 := by decide
deriving DecidableEq

namespace Whole

/-- The whole number, if it fits. -/
def ofInt? (n : Int) : Option Whole :=
  if h : -0x8000_0000_0000_0000 ≤ n ∧ n < 0x1_0000_0000_0000_0000 then some ⟨n, h.1, h.2⟩ else none

/-- A signed word as a whole number. -/
def ofInt64 (n : Int64) : Whole where
  val := n.toInt
  lower := n.le_toInt
  upper := by have := n.toInt_lt; omega

/-- An unsigned word as a whole number. -/
def ofUInt64 (n : UInt64) : Whole where
  val := n.toNat
  lower := by omega
  upper := by have := n.toNat_lt; omega

/-- The double nearest to a whole number. -/
def toFloat (n : Whole) : Float :=
  if 0 ≤ n.val then n.val.toNat.toUInt64.toFloat else -n.val.natAbs.toUInt64.toFloat

end Whole

/-- A JSON number. -/
inductive Number where
  | whole (n : Whole)
  | double (x : Float)
deriving DecidableEq

/-- The double nearest to a number. -/
def Number.toFloat : Number → Float
  | .whole n => n.toFloat
  | .double x => x

/-- A JSON value. -/
inductive Json where
  | null
  | bool (b : Bool)
  | number (n : Number)
  | string (s : String)
  | array (items : List Json)
  | object (members : List (String × Json))
deriving Inhabited

namespace Json

/-- A signed word as a value. -/
def ofInt64 (n : Int64) : Json := .number (.whole (.ofInt64 n))

/-- A double as a value; what is not finite has no number and becomes `null`. -/
def ofFloat (x : Float) : Json := if x.isFinite then .number (.double x) else .null

/-- The names for the six kinds of value. -/
def kind : Json → String
  | .null => "null"
  | .bool _ => "boolean"
  | .number _ => "number"
  | .string _ => "string"
  | .array _ => "array"
  | .object _ => "object"

/-! ## Members of an object -/

/-- Puts a member at its place in ascending order of names, over an older member of the
same name. -/
def insertMember (name : String) (value : Json) :
    List (String × Json) → List (String × Json)
  | [] => [(name, value)]
  | (name', value') :: rest =>
    if name < name' then (name, value) :: (name', value') :: rest
    else if name = name' then (name, value) :: rest
    else (name', value') :: insertMember name value rest

/-- The object with the given members, a later one over an earlier one of the same name. -/
def ofMembers (members : List (String × Json)) : Json :=
  .object (members.foldl (fun done m => insertMember m.1 m.2 done) [])

/-- The value of the first member of a name. -/
def find? (name : String) : List (String × Json) → Option Json
  | [] => none
  | (name', value) :: rest => if name = name' then some value else find? name rest

/-- The value of a member of an object; no other value has members. -/
def get? (name : String) : Json → Option Json
  | .object members => find? name members
  | _ => none

/-- Names in strictly ascending order. -/
def Sorted : List (String × Json) → Prop
  | [] => True
  | [_] => True
  | (a, _) :: (b, w) :: rest => a < b ∧ Sorted ((b, w) :: rest)

/-- Every object inside the value has its names in strictly ascending order. -/
inductive Canonical : Json → Prop where
  | null : Canonical .null
  | bool (b : Bool) : Canonical (.bool b)
  | number (n : Number) : Canonical (.number n)
  | string (s : String) : Canonical (.string s)
  | array (items : List Json) (each : ∀ v ∈ items, Canonical v) : Canonical (.array items)
  | object (members : List (String × Json)) (sorted : Sorted members)
      (each : ∀ m ∈ members, Canonical m.2) : Canonical (.object members)

/-- How many arrays and objects stand around the innermost value. -/
inductive DepthAtMost : Nat → Json → Prop where
  | null (n : Nat) : DepthAtMost n .null
  | bool (n : Nat) (b : Bool) : DepthAtMost n (.bool b)
  | number (n : Nat) (x : Number) : DepthAtMost n (.number x)
  | string (n : Nat) (s : String) : DepthAtMost n (.string s)
  | array (n : Nat) (items : List Json) (each : ∀ v ∈ items, DepthAtMost n v) :
      DepthAtMost (n + 1) (.array items)
  | object (n : Nat) (members : List (String × Json)) (each : ∀ m ∈ members, DepthAtMost n m.2) :
      DepthAtMost (n + 1) (.object members)

end Json

end DaemonRpc
