import DaemonRpc.Json.Shape

/-!
# Records with named fields

Most results are objects with a fixed list of typed fields, each of which may be left out.
`Field` names one and gives its type, and `Record fields` is a value for each of them.  The
list of fields is the only description of a record: reading, writing and the defaults all
come from it.

* An object gives each field the value of the member of its name; other members do not
  matter, and a field without a member has the default of its type.
* An array gives the fields their values in order; it may be short, but not long.
* `Record.encode` writes the members in the order of the fields.

`Model` ties a structure to its record.
-/

namespace DaemonRpc

/-- The types that a field can have. -/
inductive FieldType where
  | int
  | double
  | flag
  | text
  | optionalText
  | texts
deriving DecidableEq

namespace FieldType

/-- The values of a field of the type. -/
abbrev Carrier : FieldType → Type
  | .int => Int64
  | .double => Float
  | .flag => Bool
  | .text => String
  | .optionalText => Option String
  | .texts => List String

/-- The value of a field that is left out. -/
def absent : (t : FieldType) → t.Carrier
  | .int => 0
  | .double => 0
  | .flag => false
  | .text => ""
  | .optionalText => none
  | .texts => []

/-- Reads the value of a field. -/
def decode : (t : FieldType) → Json → Except ShapeFault t.Carrier
  | .int => Shaped.decode
  | .double => Shaped.decode
  | .flag => Shaped.decode
  | .text => Shaped.decode
  | .optionalText => Shaped.decode
  | .texts => Shaped.decode

/-- Writes the value of a field. -/
def encode : (t : FieldType) → t.Carrier → Json
  | .int => Shaped.encode
  | .double => Shaped.encode
  | .flag => Shaped.encode
  | .text => Shaped.encode
  | .optionalText => Shaped.encode
  | .texts => Shaped.encode

end FieldType

/-- A field of a record. -/
structure Field where
  name : String
  type : FieldType
deriving DecidableEq

/-- A value for each field. -/
def Record : List Field → Type
  | [] => Unit
  | f :: fs => f.type.Carrier × Record fs

namespace Record

/-- Every field has its default. -/
def absent : (fs : List Field) → Record fs
  | [] => ()
  | f :: fs => (f.type.absent, absent fs)

/-- Gives the first field of the member's name its value; a member of no field changes
nothing. -/
def setMember (member : String × Json) :
    (fs : List Field) → Record fs → Except ShapeFault (Record fs)
  | [], r => .ok r
  | f :: fs, (x, r) =>
    if f.name = member.1 then (f.type.decode member.2).map fun y => (y, r)
    else (setMember member fs r).map fun r => (x, r)

/-- Reads the fields from the members of an object, in the order of the members. -/
def ofMembers (fs : List Field) (members : List (String × Json)) : Except ShapeFault (Record fs) :=
  members.foldlM (fun r m => setMember m fs r) (absent fs)

/-- Reads the fields from the items of an array; items beyond the last field are left. -/
def ofItems : (fs : List Field) → List Json → Except ShapeFault (Record fs)
  | [], _ => .ok ()
  | fs, [] => .ok (absent fs)
  | f :: fs, v :: items => do
    let x ← f.type.decode v
    let r ← ofItems fs items
    return (x, r)

/-- Reads a record called `name`. -/
def decode (name : String) (fs : List Field) : Json → Except ShapeFault (Record fs)
  | .object members => ofMembers fs members
  | .array items => do
    let r ← ofItems fs items
    if fs.length < items.length then .error (.wrongLength items.length "fewer elements in array")
    else return r
  | v => Shaped.mismatch v ("struct " ++ name)

/-- The members of a record, in the order of its fields. -/
def members : (fs : List Field) → Record fs → List (String × Json)
  | [], _ => []
  | f :: fs, (x, r) => (f.name, f.type.encode x) :: members fs r

end Record

/-- A structure that is a record: its name, its fields, and the two directions between them. -/
class Model (α : Type) where
  name : String
  fields : List Field
  toRecord : α → Record fields
  ofRecord : Record fields → α
  ofRecord_toRecord : ∀ a, ofRecord (toRecord a) = a
  toRecord_ofRecord : ∀ r, toRecord (ofRecord r) = r
  names_nodup : (fields.map Field.name).Nodup

namespace Model

/-- The structure whose every field is left out. -/
def absent (α : Type) [Model α] : α := ofRecord (Record.absent (fields α))

instance {α : Type} [Model α] : Shaped α where
  decode v := (Record.decode (name α) (fields α) v).map ofRecord
  encode a := .object (Record.members (fields α) (toRecord a))

end Model

end DaemonRpc
