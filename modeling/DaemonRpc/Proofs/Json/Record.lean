import DaemonRpc.Json.Record
import DaemonRpc.Proofs.Json.Canonical
import DaemonRpc.Proofs.Json.Nearest
import DaemonRpc.Proofs.Json.Shape

/-!
# What a record takes from an object

A record is read field by field: each takes the last member of its name, whatever the other members
are.  The proofs never look at the order in which the members come.

* `FieldType.Reads` says without a reader which values stand for which value of a field, and
  `FieldType.IsDefault` which value a field has that is left out.
* `Record.Related` compares two records field by field.  One member takes a record to the next
  (`setMember_eq_ok_iff`), and the members of an object are such steps in a row
  (`foldlM_setMember_eq_ok_iff`).
* `FieldOf` is a field of a structure, with its value.  `Model.decode_object_eq_ok_iff` says what a
  structure takes from an object through its fields alone.
-/

namespace DaemonRpc

/-! ## The values of a field -/

/-- A value stands for a value of a field. -/
inductive FieldType.Reads : (t : FieldType) → Json → t.Carrier → Prop where
  | int {n : Whole} {i : Int64} (same : n.val = i.toInt) : Reads .int (.number (.whole n)) i
  | double {n : Number} {x : Float} (denoted : n.Denotes x) : Reads .double (.number n) x
  | flag (b : Bool) : Reads .flag (.bool b) b
  | text (s : String) : Reads .text (.string s) s
  | noText : Reads .optionalText .null none
  | someText (s : String) : Reads .optionalText (.string s) (some s)
  | texts (ss : List String) : Reads .texts (.array (ss.map .string)) ss

/-- A value has the type of a field. -/
def FieldType.Admits (t : FieldType) (v : Json) : Prop := ∃ x, t.Reads v x

/-- The value of a field that is left out: zero, no, nothing. -/
inductive FieldType.IsDefault : (t : FieldType) → t.Carrier → Prop where
  | int : IsDefault .int 0
  | double : IsDefault .double 0
  | flag : IsDefault .flag false
  | text : IsDefault .text ""
  | optionalText : IsDefault .optionalText none
  | texts : IsDefault .texts []

theorem FieldType.isDefault_iff {t : FieldType} {x : t.Carrier} :
    t.IsDefault x ↔ x = t.absent := by
  constructor
  · intro h
    cases h with
    | _ => rfl
  · rintro rfl
    cases t with
    | int => exact .int
    | double => exact .double
    | flag => exact .flag
    | text => exact .text
    | optionalText => exact .optionalText
    | texts => exact .texts

/-- The texts of an array of strings. -/
theorem forall₂_decodeString_iff {items : List Json} {ss : List String} :
    List.Forall₂ (fun u s => Shaped.decodeString u = .ok s) items ss ↔
      items = ss.map .string := by
  simp only [Shaped.decodeString_eq_ok_iff]
  induction ss generalizing items with
  | nil => simp
  | cons s ss ih => cases items <;> simp [ih]

/-- The reader of a field accepts the values that stand for one of the field. -/
theorem FieldType.decode_eq_ok_iff {t : FieldType} {v : Json} {x : t.Carrier} :
    t.decode v = .ok x ↔ t.Reads v x := by
  cases t with
  | int =>
    refine Shaped.decodeInt64_eq_ok_iff.trans ⟨?_, fun h => ?_⟩
    · rintro ⟨n, rfl, hn⟩
      exact .int hn
    · cases h with
      | int hn => exact ⟨_, rfl, hn⟩
  | double =>
    refine Shaped.decodeFloat_eq_ok_iff.trans ⟨?_, fun h => ?_⟩
    · rintro ⟨n, rfl, hn⟩
      exact .double (Number.toFloat_eq_iff.1 hn)
    · cases h with
      | double hn => exact ⟨_, rfl, Number.toFloat_eq_iff.2 hn⟩
  | flag =>
    refine Shaped.decodeBool_eq_ok_iff.trans ⟨?_, fun h => ?_⟩
    · rintro rfl
      exact .flag x
    · cases h with
      | flag => rfl
  | text =>
    refine Shaped.decodeString_eq_ok_iff.trans ⟨?_, fun h => ?_⟩
    · rintro rfl
      exact .text x
    · cases h with
      | text => rfl
  | optionalText =>
    refine Shaped.decodeOptionString_eq_ok_iff.trans ⟨?_, fun h => ?_⟩
    · rintro (⟨rfl, rfl⟩ | ⟨s, rfl, rfl⟩)
      · exact .noText
      · exact .someText s
    · cases h with
      | noText => exact Or.inl ⟨rfl, rfl⟩
      | someText s => exact Or.inr ⟨s, rfl, rfl⟩
  | texts =>
    refine Shaped.decodeList_eq_ok_iff.trans ⟨?_, fun h => ?_⟩
    · rintro ⟨items, rfl, hitems⟩
      obtain rfl := forall₂_decodeString_iff.1 hitems
      exact .texts x
    · cases h with
      | texts => exact ⟨_, rfl, forall₂_decodeString_iff.2 rfl⟩

/-! ## One field and the members of an object -/

namespace Field

/-- One member gives the field of its name a value and leaves the others as they are. -/
def Takes (m : String × Json) (f : Field) (before after : f.type.Carrier) : Prop :=
  if f.name = m.1 then f.type.Reads m.2 after else after = before

/-- Each member of the field's name has the field's type, and the last one gives the value. -/
def TakesAll (members : List (String × Json)) (f : Field) (before after : f.type.Carrier) : Prop :=
  (∀ m ∈ members, m.1 = f.name → f.type.Admits m.2) ∧
    match Json.findLast? f.name members with
    | some v => f.type.Reads v after
    | none => after = before

/-- The members are taken one by one. -/
theorem takesAll_cons (m : String × Json) (members : List (String × Json)) (f : Field)
    (before after : f.type.Carrier) :
    f.TakesAll (m :: members) before after ↔
      ∃ between, f.Takes m before between ∧ f.TakesAll members between after := by
  rw [TakesAll, List.forall_mem_cons, Json.findLast?_cons]
  by_cases hname : f.name = m.1
  · simp only [Takes, TakesAll, hname, forall_const]
    cases Json.findLast? m.1 members with
    | none =>
      simp only [Option.none_or]
      constructor
      · rintro ⟨⟨-, hrest⟩, hreads⟩
        exact ⟨after, hreads, hrest, rfl⟩
      · rintro ⟨_, hreads, hrest, rfl⟩
        exact ⟨⟨⟨_, hreads⟩, hrest⟩, hreads⟩
    | some v =>
      simp only [Option.some_or]
      constructor
      · rintro ⟨⟨⟨between, hbetween⟩, hrest⟩, hreads⟩
        exact ⟨between, hbetween, hrest, hreads⟩
      · rintro ⟨between, hbetween, hrest, hreads⟩
        exact ⟨⟨⟨between, hbetween⟩, hrest⟩, hreads⟩
  · have hother : ¬ m.1 = f.name := fun h => hname h.symm
    simp [Takes, TakesAll, hname, hother]

end Field

/-! ## Records -/

namespace Record

/-- Two records are related field by field. -/
def Related (R : (f : Field) → f.type.Carrier → f.type.Carrier → Prop) :
    (fs : List Field) → Record fs → Record fs → Prop
  | [], _, _ => True
  | f :: fs, (x, r), (x', r') => R f x x' ∧ Related R fs r r'

/-- Records with the same fields are the same. -/
theorem related_eq_iff {fs : List Field} {r r' : Record fs} :
    Related (fun _ x x' => x' = x) fs r r' ↔ r' = r := by
  induction fs with
  | nil => simp [Related]; rfl
  | cons f fs ih =>
    obtain ⟨x, r⟩ := r
    obtain ⟨x', r'⟩ := r'
    rw [Related, ih]
    exact Prod.mk.injEq .. ▸ Iff.rfl

/-- Two relations one after the other relate each field by both. -/
theorem related_comp {R S : (f : Field) → f.type.Carrier → f.type.Carrier → Prop}
    {fs : List Field} {r r' : Record fs} :
    (∃ between, Related R fs r between ∧ Related S fs between r') ↔
      Related (fun f x x' => ∃ y, R f x y ∧ S f y x') fs r r' := by
  induction fs with
  | nil => exact ⟨fun _ => trivial, fun _ => ⟨r, trivial, trivial⟩⟩
  | cons f fs ih =>
    obtain ⟨x, r⟩ := r
    obtain ⟨x', r'⟩ := r'
    rw [Related, ← ih]
    constructor
    · rintro ⟨⟨y, s⟩, ⟨hxy, hrs⟩, hyx', hsr'⟩
      exact ⟨⟨y, hxy, hyx'⟩, s, hrs, hsr'⟩
    · rintro ⟨⟨y, hxy, hyx'⟩, s, hrs, hsr'⟩
      exact ⟨(y, s), ⟨hxy, hrs⟩, hyx', hsr'⟩

/-- What relates each field is all that matters. -/
theorem related_congr {R S : (f : Field) → f.type.Carrier → f.type.Carrier → Prop}
    {fs : List Field} (h : ∀ f ∈ fs, ∀ x x', R f x x' ↔ S f x x') {r r' : Record fs} :
    Related R fs r r' ↔ Related S fs r r' := by
  induction fs with
  | nil => exact Iff.rfl
  | cons f fs ih =>
    obtain ⟨x, r⟩ := r
    obtain ⟨x', r'⟩ := r'
    rw [Related, Related, h f List.mem_cons_self, ih fun g hg => h g (List.mem_cons_of_mem f hg)]

/-- A member takes a record to the next. -/
theorem setMember_eq_ok_iff {fs : List Field} (hnames : (fs.map Field.name).Nodup)
    {m : String × Json} {r r' : Record fs} :
    setMember m fs r = .ok r' ↔ Related (Field.Takes m) fs r r' := by
  induction fs with
  | nil => exact ⟨fun _ => trivial, fun _ => rfl⟩
  | cons f fs ih =>
    obtain ⟨x, r⟩ := r
    obtain ⟨x', r'⟩ := r'
    rw [List.map_cons, List.nodup_cons] at hnames
    rw [setMember, Related, Field.Takes]
    by_cases hname : f.name = m.1
    · -- no later field has the name, and they all stay as they are
      have hrest : Related (Field.Takes m) fs r r' ↔ r' = r := by
        rw [← related_eq_iff]
        refine related_congr fun g hg x x' => ?_
        have hne : g.name ≠ m.1 := fun hsame =>
          hnames.1 (hname ▸ hsame ▸ List.mem_map_of_mem hg)
        rw [Field.Takes, if_neg hne]
      rw [if_pos hname, if_pos hname, hrest, ← FieldType.decode_eq_ok_iff]
      refine map_eq_ok_iff.trans ⟨?_, ?_⟩
      · rintro ⟨y, hy, hsame⟩
        obtain ⟨rfl, rfl⟩ := Prod.mk.inj hsame
        exact ⟨hy, rfl⟩
      · rintro ⟨hy, rfl⟩
        exact ⟨x', hy, rfl⟩
    · rw [if_neg hname, if_neg hname, ← ih hnames.2]
      refine map_eq_ok_iff.trans ⟨?_, ?_⟩
      · rintro ⟨s, hs, hsame⟩
        obtain ⟨rfl, rfl⟩ := Prod.mk.inj hsame
        exact ⟨rfl, hs⟩
      · rintro ⟨rfl, hs⟩
        exact ⟨r', hs, rfl⟩

/-- The members of an object take a record to what each field takes of them all. -/
theorem foldlM_setMember_eq_ok_iff {fs : List Field} (hnames : (fs.map Field.name).Nodup)
    {members : List (String × Json)} {r r' : Record fs} :
    members.foldlM (fun r m => setMember m fs r) r = .ok r' ↔
      Related (Field.TakesAll members) fs r r' := by
  induction members generalizing r with
  | nil =>
    have hsame : Related (Field.TakesAll []) fs r r' ↔ r' = r := by
      rw [← related_eq_iff]
      refine related_congr fun f _ x x' => ?_
      simp [Field.TakesAll, Json.findLast?, Json.find?]
    rw [hsame, List.foldlM_nil]
    exact ⟨fun h => (Except.ok.inj h).symm, fun h => congrArg _ h.symm⟩
  | cons m members ih =>
    rw [List.foldlM_cons, bind_eq_ok_iff]
    simp only [setMember_eq_ok_iff hnames, ih]
    rw [related_comp]
    exact related_congr fun f _ x x' => (f.takesAll_cons m members x x').symm

/-- A member of another name changes nothing. -/
theorem setMember_of_notMem {fs : List Field} {m : String × Json}
    (h : m.1 ∉ fs.map Field.name) (r : Record fs) : setMember m fs r = .ok r := by
  induction fs with
  | nil => rfl
  | cons f fs ih =>
    obtain ⟨x, r⟩ := r
    rw [List.map_cons, List.mem_cons, not_or] at h
    rw [setMember, if_neg (Ne.symm h.1), ih h.2]
    rfl

/-- Members of other names make no difference, not even to the fault of the others. -/
theorem ofMembers_filter (fs : List Field) (members : List (String × Json)) :
    ofMembers fs (members.filter fun m => m.1 ∈ fs.map Field.name) = ofMembers fs members := by
  have hloop : ∀ r, (members.filter fun m => m.1 ∈ fs.map Field.name).foldlM
      (fun r m => setMember m fs r) r = members.foldlM (fun r m => setMember m fs r) r := by
    induction members with
    | nil => exact fun r => rfl
    | cons m members ih =>
      intro r
      rw [List.filter_cons, List.foldlM_cons]
      by_cases hname : m.1 ∈ fs.map Field.name
      · rw [if_pos (by simpa using hname), List.foldlM_cons]
        exact congrArg _ (funext ih)
      · rw [if_neg (by simpa using hname), setMember_of_notMem hname, ih]
        rfl
  exact hloop _

end Record

/-! ## Structures -/

/-- A field of a structure, with its value in each of them. -/
structure FieldOf (α : Type) extends Field where
  value : α → type.Carrier

namespace Record

variable {α : Type}

/-- The fields of a record that belongs to a structure. -/
def fieldsOf : (fs : List Field) → (α → Record fs) → List (FieldOf α)
  | [], _ => []
  | f :: fs, record =>
    { toField := f, value := fun a => (record a).1 } :: fieldsOf fs fun a => (record a).2

theorem map_toField_fieldsOf (fs : List Field) (record : α → Record fs) :
    (fieldsOf fs record).map FieldOf.toField = fs := by
  induction fs with
  | nil => rfl
  | cons f fs ih => rw [fieldsOf, List.map_cons, ih]

/-- How a record comes out of one whose every field is left out, field by field. -/
theorem related_absent_iff {R : (f : Field) → f.type.Carrier → f.type.Carrier → Prop}
    {fs : List Field} {record : α → Record fs} {a : α} :
    Related R fs (absent fs) (record a) ↔
      ∀ f ∈ fieldsOf fs record, R f.toField f.type.absent (f.value a) := by
  induction fs with
  | nil => simp [Related, fieldsOf]
  | cons f fs ih =>
    rw [fieldsOf, List.forall_mem_cons, ← ih]
    exact Iff.rfl

/-- There is a record if there is a value for each field. -/
theorem exists_related_iff {R : (f : Field) → f.type.Carrier → f.type.Carrier → Prop}
    {fs : List Field} :
    (∃ r, Related R fs (absent fs) r) ↔ ∀ f ∈ fs, ∃ x, R f f.type.absent x := by
  induction fs with
  | nil => exact ⟨fun _ => by simp, fun _ => ⟨(), trivial⟩⟩
  | cons f fs ih =>
    rw [List.forall_mem_cons, ← ih]
    constructor
    · rintro ⟨⟨x, r⟩, hx, hr⟩
      exact ⟨⟨x, hx⟩, r, hr⟩
    · rintro ⟨⟨x, hx⟩, r, hr⟩
      exact ⟨(x, r), hx, hr⟩

/-- The members of a record are the values of its fields under their names. -/
theorem members_eq_map (fs : List Field) (record : α → Record fs) (a : α) :
    members fs (record a) =
      (fieldsOf fs record).map fun f => (f.name, f.type.encode (f.value a)) := by
  induction fs with
  | nil => rfl
  | cons f fs ih =>
    rw [fieldsOf, List.map_cons, ← ih]
    rfl

end Record

namespace Model

variable {α : Type} [Model α]

/-- The fields of a structure. -/
def fieldsOf (α : Type) [Model α] : List (FieldOf α) := Record.fieldsOf (fields α) toRecord

theorem map_name_fieldsOf : (fieldsOf α).map (·.name) = (fields α).map Field.name := by
  rw [← Record.map_toField_fieldsOf (fields α) (toRecord (α := α)), List.map_map]
  rfl

/-- A structure is read from an object if its record is. -/
theorem decode_object_iff {members : List (String × Json)} {a : α} :
    Shaped.decode (.object members) = .ok a ↔
      Record.ofMembers (fields α) members = .ok (toRecord a) := by
  refine map_eq_ok_iff.trans ⟨?_, ?_⟩
  · rintro ⟨r, hr, rfl⟩
    rw [toRecord_ofRecord]
    exact hr
  · intro h
    exact ⟨_, h, ofRecord_toRecord a⟩

/-- A structure is read from an object if each of its fields takes its value from the members. -/
theorem decode_object_eq_ok_iff {members : List (String × Json)} {a : α} :
    Shaped.decode (.object members) = .ok a ↔
      ∀ f ∈ fieldsOf α, f.TakesAll members f.type.absent (f.value a) := by
  rw [decode_object_iff, Record.ofMembers, Record.foldlM_setMember_eq_ok_iff names_nodup,
    Record.related_absent_iff]
  rfl

/-- Some structure is read from an object exactly when every member that bears the name of a field
has the type of that field. -/
theorem exists_decode_object_iff {members : List (String × Json)} :
    (∃ a : α, Shaped.decode (.object members) = .ok a) ↔
      ∀ m ∈ members, ∀ f ∈ fieldsOf α, m.1 = f.name → f.type.Admits m.2 := by
  constructor
  · rintro ⟨a, ha⟩ m hm f hf
    exact (decode_object_eq_ok_iff.1 ha f hf).1 m hm
  · intro h
    have hsome : ∀ f ∈ fields α, ∃ x, f.TakesAll members f.type.absent x := by
      intro f hf
      rw [← Record.map_toField_fieldsOf (fields α) (toRecord (α := α))] at hf
      obtain ⟨g, hg, rfl⟩ := List.mem_map.1 hf
      have hadmits := fun m hm => h m hm g hg
      cases hfind : Json.findLast? g.name members with
      | none => exact ⟨_, hadmits, by rw [hfind]⟩
      | some v =>
        obtain ⟨x, hx⟩ := hadmits _ (Json.mem_of_findLast? hfind) rfl
        exact ⟨x, hadmits, by rw [hfind]; exact hx⟩
    obtain ⟨r, hr⟩ := Record.exists_related_iff.2 hsome
    refine ⟨ofRecord r, ?_⟩
    rw [decode_object_iff, Record.ofMembers, Record.foldlM_setMember_eq_ok_iff names_nodup,
      toRecord_ofRecord]
    exact hr

/-- Members of other names make no difference. -/
theorem decode_object_filter (members : List (String × Json)) :
    Shaped.decode (α := α)
        (.object (members.filter fun m => m.1 ∈ (fieldsOf α).map (·.name))) =
      Shaped.decode (.object members) := by
  have hnames : (fun m : String × Json => decide (m.1 ∈ (fieldsOf α).map (·.name))) =
      fun m => decide (m.1 ∈ (fields α).map Field.name) := by
    rw [map_name_fieldsOf]
  show (Record.ofMembers (fields α) _).map ofRecord = (Record.ofMembers (fields α) _).map ofRecord
  rw [hnames, Record.ofMembers_filter]

end Model

end DaemonRpc
