import DaemonRpc.Proofs.Json.Finite
import DaemonRpc.Proofs.Json.RoundTrip
import DaemonRpc.Proofs.Result.Documented

/-!
# Results written and read again

A structure is written as an object with a member for each of its fields.  Read again it is the same
structure, for the names of the fields are all different and what is written for a field stands for
its value.  A double that is not finite would be lost, since it is written as `null`.

* `FieldType.reads_encode` and `FieldType.isFinite_of_reads` are the two sides for one field.
* `Model.decode_of_find?` reads an object that has every field once, in any order.
* `Restored` says that a value comes back, and `models_restored` that all do which can be written.
-/

namespace DaemonRpc

/-! ## One field -/

namespace FieldType

/-- A value of a field that can be written: a double has to be finite. -/
def IsFinite : (t : FieldType) → t.Carrier → Prop
  | .double, x => x.isFinite = true
  | _, _ => True

/-- A field that is left out can be written. -/
theorem isFinite_absent (t : FieldType) : t.IsFinite t.absent := by
  cases t with
  | double => rfl
  | int => trivial
  | flag => trivial
  | text => trivial
  | optionalText => trivial
  | texts => trivial

/-- What is written for a value stands for it. -/
theorem reads_encode {t : FieldType} {x : t.Carrier} (h : t.IsFinite x) :
    t.Reads (t.encode x) x := by
  cases t with
  | int => exact .int rfl
  | double =>
    have hwritten : FieldType.double.encode x = .number (.double x) := if_pos h
    rw [hwritten]
    exact .double (.double x)
  | flag => exact .flag x
  | text => exact .text x
  | optionalText =>
    cases x with
    | none => exact .noText
    | some s => exact .someText s
  | texts => exact .texts x

/-- What a value stands for can be written, if its numbers are finite. -/
theorem isFinite_of_reads {t : FieldType} {v : Json} {x : t.Carrier} (hv : v.FiniteNumbers)
    (h : t.Reads v x) : t.IsFinite x := by
  cases h with
  | int _ => trivial
  | double hdenoted =>
    cases hv with
    | number _ hn => exact Number.toFloat_eq_iff.2 hdenoted ▸ Number.isFinite_toFloat hn
  | flag _ => trivial
  | text _ => trivial
  | noText => trivial
  | someText _ => trivial
  | texts _ => trivial

/-- There are no objects in what is written for a field, and nothing to put into order. -/
theorem normal_encode (t : FieldType) (x : t.Carrier) : (t.encode x).normal = t.encode x := by
  apply Json.normal_eq_self
  cases t with
  | int => exact .number _
  | double =>
    show (Json.ofFloat x).Canonical
    unfold Json.ofFloat
    split
    · exact .number _
    · exact .null
  | flag => exact .bool x
  | text => exact .string x
  | optionalText =>
    cases x with
    | none => exact .null
    | some s => exact .string s
  | texts =>
    refine .array _ fun v hv => ?_
    obtain ⟨s, -, rfl⟩ := List.mem_map.1 hv
    exact .string s

end FieldType

/-! ## Structures -/

/-- The values of the items that there are can be written, and so can the defaults of the rest. -/
theorem Record.isFinite_of_ofItems {fs : List Field} {items : List Json} {r : Record fs}
    (hitems : ∀ v ∈ items, v.FiniteNumbers) (h : ofItems fs items = .ok r) :
    Related (fun f _ x => f.type.IsFinite x) fs (absent fs) r := by
  induction fs generalizing items with
  | nil => trivial
  | cons f fs ih =>
    cases items with
    | nil =>
      obtain rfl := Except.ok.inj h
      have hrest : ofItems fs [] = .ok (absent fs) := by
        cases fs with
        | nil => rfl
        | cons _ _ => rfl
      exact ⟨f.type.isFinite_absent, ih (by simp) hrest⟩
    | cons v items =>
      obtain ⟨x, hx, h⟩ := bind_eq_ok_iff.1 h
      obtain ⟨rest, hrest, h⟩ := bind_eq_ok_iff.1 h
      obtain rfl := Except.ok.inj h
      rw [List.forall_mem_cons] at hitems
      exact ⟨FieldType.isFinite_of_reads hitems.1 (FieldType.decode_eq_ok_iff.1 hx),
        ih hitems.2 hrest⟩

namespace Model

variable {α : Type} [Model α]

/-- A structure is written member by member. -/
theorem encode_eq (a : α) :
    Shaped.encode a = .object ((fieldsOf α).map fun f => (f.name, f.type.encode (f.value a))) :=
  congrArg Json.object (Record.members_eq_map (fields α) toRecord a)

/-- A structure is read from an object that has each of its names once, whatever their order. -/
theorem decode_of_find? {members : List (String × Json)} {a : α}
    (hnodup : (members.map Prod.fst).Nodup)
    (hfind : ∀ f ∈ fieldsOf α, ∃ v, Json.find? f.name members = some v ∧
      f.type.Reads v (f.value a)) :
    Shaped.decode (.object members) = .ok a := by
  rw [decode_object_eq_ok_iff]
  intro f hf
  obtain ⟨v, hv, hreads⟩ := hfind f hf
  refine ⟨fun m hm hname => ?_, ?_⟩
  · -- the one member of the name is the one that was found
    have hm' : Json.find? f.name members = some m.2 := by
      rw [← hname]
      exact Json.find?_of_mem hnodup hm
    obtain rfl := Option.some.inj (hv.symm.trans hm')
    exact ⟨_, hreads⟩
  · rw [Json.findLast?_eq_find? hnodup, hv]
    exact hreads

/-- What is written for a structure has each of its names once. -/
theorem nodup_written (a : α) :
    (((fieldsOf α).map fun f => (f.name, f.type.encode (f.value a))).map Prod.fst).Nodup := by
  rw [List.map_map]
  exact map_name_fieldsOf (α := α) ▸ names_nodup

/-- What is written for a structure is read as that structure. -/
theorem decode_encode {a : α} (h : ∀ f ∈ fieldsOf α, f.type.IsFinite (f.value a)) :
    Shaped.decode (Shaped.encode a) = .ok a := by
  rw [encode_eq]
  refine decode_of_find? (nodup_written a) fun f hf => ⟨_, ?_, FieldType.reads_encode (h f hf)⟩
  exact Json.find?_of_mem (nodup_written a) (List.mem_map_of_mem hf)

/-- What is written for a structure may be put into order first. -/
theorem decode_normal_encode {a : α} (h : ∀ f ∈ fieldsOf α, f.type.IsFinite (f.value a)) :
    Shaped.decode (Shaped.encode a).normal = .ok a := by
  rw [encode_eq]
  obtain ⟨ordered, hnormal, hsorted, hfind⟩ := Json.exists_normal_object
    ((fieldsOf α).map fun f => (f.name, f.type.encode (f.value a)))
  rw [hnormal]
  refine decode_of_find? (Json.sorted_names_nodup hsorted) fun f hf =>
    ⟨_, ?_, FieldType.reads_encode (h f hf)⟩
  rw [hfind, Json.findLast?_of_mem (nodup_written a) (List.mem_map_of_mem hf), Option.map_some,
    FieldType.normal_encode]

/-- What is read from a value with finite numbers can be written. -/
theorem isFinite_of_decode {v : Json} {a : α} (hv : v.FiniteNumbers)
    (h : Shaped.decode v = .ok a) : ∀ f ∈ fieldsOf α, f.type.IsFinite (f.value a) := by
  cases hv with
  | object members each =>
    intro f hf
    have htakes := (decode_object_eq_ok_iff.1 h f hf).2
    split at htakes
    · rename_i v hfind
      exact FieldType.isFinite_of_reads (each _ (Json.mem_of_findLast? hfind)) htakes
    · rw [htakes]
      exact f.type.isFinite_absent
  | array items each =>
    obtain ⟨r, hr, rfl⟩ := map_eq_ok_iff.1 h
    obtain ⟨r', hitems, hr⟩ := bind_eq_ok_iff.1 hr
    split at hr
    · simp at hr
    · obtain rfl := Except.ok.inj hr
      have hrecord : Record.Related (fun f _ x => f.type.IsFinite x) (fields α)
          (Record.absent (fields α)) (toRecord (ofRecord r' : α)) := by
        rw [toRecord_ofRecord]
        exact Record.isFinite_of_ofItems each hitems
      exact Record.related_absent_iff.1 hrecord
  | null => simp [Shaped.decode, Record.decode, Shaped.mismatch, Except.map] at h
  | bool _ => simp [Shaped.decode, Record.decode, Shaped.mismatch, Except.map] at h
  | number _ _ => simp [Shaped.decode, Record.decode, Shaped.mismatch, Except.map] at h
  | string _ => simp [Shaped.decode, Record.decode, Shaped.mismatch, Except.map] at h

end Model

/-! ## What comes back -/

/-- Written and read again a value is what it was, also when the members of what is written are put
into order in between. -/
def Restored {α : Type} [Shaped α] (a : α) : Prop :=
  ∀ method, decodeResult α method (Shaped.encode a) = .ok a ∧
    decodeResult α method (Shaped.encode a).normal = .ok a

/-- What the writing of a structure and the reading undo, where the table names its fields: those
whose doubles are finite come back, alone and in lists, and so does everything that was read from a
value with finite numbers. -/
structure Restores (α : Type) [Shaped α] (fields : List (FieldOf α)) : Prop where
  written : ∀ a : α, Shaped.encode a =
    .object (fields.map fun f => (f.name, f.type.encode (f.value a)))
  one : ∀ a : α, (∀ f ∈ fields, f.type.IsFinite (f.value a)) → Restored a
  list : ∀ as : List α, (∀ a ∈ as, ∀ f ∈ fields, f.type.IsFinite (f.value a)) → Restored as
  again : ∀ (method : String) (v : Json) (a : α), v.FiniteNumbers →
    decodeResult α method v = .ok a → Restored a
  listAgain : ∀ (method : String) (v : Json) (as : List α), v.FiniteNumbers →
    decodeResult (List α) method v = .ok as → Restored as

/-- A list comes back if its items do. -/
theorem restored_list {α : Type} [Shaped α] {as : List α} (h : ∀ a ∈ as, Restored a) :
    Restored as := by
  have hitems : ∀ method (write : α → Json), (∀ a ∈ as, decodeResult α method (write a) = .ok a) →
      decodeResult (List α) method (.array (as.map write)) = .ok as := by
    intro method write hwrite
    refine decodeResult_list_eq_ok_iff.2 ⟨_, rfl, ?_⟩
    rw [List.forall₂_map_left_iff, List.forall₂_same]
    exact hwrite
  intro method
  refine ⟨hitems method Shaped.encode fun a ha => (h a ha method).1, ?_⟩
  show decodeResult (List α) method (Json.array (as.map Shaped.encode)).normal = .ok as
  rw [Json.normal, Json.normalItems_eq_map, List.map_map]
  exact hitems method _ fun a ha => (h a ha method).2

/-- The fields of a structure restore it. -/
theorem Model.restores (α : Type) [Model α] : Restores α (fieldsOf α) := by
  have hone : ∀ a : α, (∀ f ∈ fieldsOf α, f.type.IsFinite (f.value a)) → Restored a := by
    intro a ha method
    exact ⟨decodeResult_eq_ok_iff.2 (decode_encode ha),
      decodeResult_eq_ok_iff.2 (decode_normal_encode ha)⟩
  have hagain : ∀ (method : String) (v : Json) (a : α), v.FiniteNumbers →
      decodeResult α method v = .ok a → Restored a := by
    intro method v a hv h
    exact hone a (isFinite_of_decode hv (decodeResult_eq_ok_iff.1 h))
  refine ⟨encode_eq, hone, fun as has => restored_list fun a ha => hone a (has a ha), hagain, ?_⟩
  intro method v as hv h
  obtain ⟨items, rfl, hitems⟩ := decodeResult_list_eq_ok_iff.1 h
  cases hv with
  | array _ each =>
    refine restored_list ?_
    clear h
    induction hitems with
    | nil => simp
    | cons hitem _ ih =>
      rw [List.forall_mem_cons] at each ⊢
      exact ⟨hagain method _ _ each.1 hitem, ih each.2⟩

/-- Every structure comes back when it is written and read again, under the names of its
documentation.  A value that a text spells has finite numbers, so what is read from a text always
comes back. -/
theorem models_restored :
    (∀ (input : Bytes) (v : Json), Json.read input = .ok v → v.FiniteNumbers) ∧
    Restores DaemonStatus DaemonStatus.documented ∧
    Restores MiningInfo MiningInfo.documented ∧
    Restores Block Block.documented ∧
    Restores TxOutSetInfo TxOutSetInfo.documented ∧
    Restores Peer Peer.documented ∧
    Restores AddressInfo AddressInfo.documented ∧
    Restores ReceivedByAddress ReceivedByAddress.documented ∧
    Restores Account Account.documented :=
  -- the fields of the instances are those of the tables, name by name and type by type
  ⟨fun _ _ => Json.read_finiteNumbers, Model.restores DaemonStatus, Model.restores MiningInfo,
    Model.restores Block, Model.restores TxOutSetInfo, Model.restores Peer,
    Model.restores AddressInfo, Model.restores ReceivedByAddress, Model.restores Account⟩

/-- The last block of a chain: it has a previous block and no next one. -/
theorem models_restored_last_block :
    let block : Block :=
      { hash := "0f", confirmations := 1, size := 215, height := 1, version := 2, merkleRoot := "9b"
        tx := ["9b"], time := 1296688928, nonce := 1924588547, bits := "1d00ffff", difficulty := 1.5
        previousBlockHash := some "00", nextBlockHash := none }
    (∀ f ∈ Block.documented, f.type.IsFinite (f.value block)) ∧ Restored block := by
  intro block
  have hdifficulty : (1.5 : Float).isFinite = true := by decide
  have hfinite : ∀ f ∈ Block.documented, f.type.IsFinite (f.value block) := by
    simp only [Block.documented, List.forall_mem_cons, FieldType.IsFinite]
    exact ⟨trivial, trivial, trivial, trivial, trivial, trivial, trivial, trivial, trivial, trivial,
      hdifficulty, trivial, trivial, by simp⟩
  obtain ⟨-, -, -, hblock, -⟩ := models_restored
  exact ⟨hfinite, hblock.one block hfinite⟩

end DaemonRpc
