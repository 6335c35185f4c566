import DaemonRpc.Proofs.Json.Canonical

/-!
# Values in order

A printer writes the members of an object as they come, and a reader puts them in order.  So what
is read of a printed value is `Json.normal`, the value with every object inside in the form that the
reader builds.  For a canonical value that is the value itself: `normal_eq_self`.

`Json.WholeNumbers` are the values without doubles, whose texts are another matter.
-/

namespace DaemonRpc.Json

/-- Every number inside the value is whole. -/
inductive WholeNumbers : Json → Prop where
  | null : WholeNumbers .null
  | bool (b : Bool) : WholeNumbers (.bool b)
  | number (n : Whole) : WholeNumbers (.number (.whole n))
  | string (s : String) : WholeNumbers (.string s)
  | array (items : List Json) (each : ∀ v ∈ items, WholeNumbers v) : WholeNumbers (.array items)
  | object (members : List (String × Json)) (each : ∀ m ∈ members, WholeNumbers m.2) :
      WholeNumbers (.object members)

-- what is known of the parts of a value that is written out settles it
attribute [simp] WholeNumbers.null WholeNumbers.bool WholeNumbers.number WholeNumbers.string
  WholeNumbers.array WholeNumbers.object
attribute [simp] DepthAtMost.null DepthAtMost.bool DepthAtMost.number DepthAtMost.string
  DepthAtMost.array DepthAtMost.object
attribute [simp] Canonical.null Canonical.bool Canonical.number Canonical.string Canonical.array

/-! ## What a printed value reads as -/

mutual

/-- The value with the members of every object put into order. -/
def normal : Json → Json
  | .null => .null
  | .bool b => .bool b
  | .number n => .number n
  | .string s => .string s
  | .array items => .array (normalItems items)
  | .object members => ofMembers (normalMembers members)
termination_by structural v => v

/-- Each item put into order. -/
def normalItems : List Json → List Json
  | [] => []
  | v :: rest => normal v :: normalItems rest
termination_by structural vs => vs

/-- The value of each member put into order, and the members left in theirs. -/
def normalMembers : List (String × Json) → List (String × Json)
  | [] => []
  | m :: rest => normalMember m :: normalMembers rest
termination_by structural ms => ms

/-- The value of a member put into order. -/
def normalMember : String × Json → String × Json
  | (name, v) => (name, normal v)
termination_by structural m => m

end

theorem normalItems_eq_map (items : List Json) : normalItems items = items.map normal := by
  induction items with
  | nil => rfl
  | cons v rest ih => rw [normalItems, ih, List.map_cons]

theorem normalMembers_eq_map (members : List (String × Json)) :
    normalMembers members = members.map fun m => (m.1, m.2.normal) := by
  induction members with
  | nil => rfl
  | cons m rest ih => rw [normalMembers, ih, List.map_cons, normalMember]

/-- Under a name stands what stood there, put into order. -/
theorem find?_normalMembers (name : String) (members : List (String × Json)) :
    find? name (normalMembers members) = (find? name members).map normal := by
  induction members with
  | nil => rfl
  | cons m rest ih =>
    rw [normalMembers, normalMember, find?, find?, ih]
    split <;> rfl

/-- The last member of a name has what stood there, put into order. -/
theorem findLast?_normalMembers (name : String) (members : List (String × Json)) :
    findLast? name (normalMembers members) = (findLast? name members).map normal := by
  rw [findLast?, findLast?, normalMembers_eq_map, ← List.map_reverse, ← normalMembers_eq_map,
    find?_normalMembers]

/-- An object that is put into order has each of its names once, and under it what its last member
of that name has, put into order. -/
theorem exists_normal_object (members : List (String × Json)) :
    ∃ ordered, (Json.object members).normal = .object ordered ∧ Sorted ordered ∧
      ∀ name, find? name ordered = (findLast? name members).map normal := by
  refine ⟨_, rfl, sorted_foldl_insertMember _ trivial, fun name => ?_⟩
  rw [find?_foldl_insertMember, findLast?_normalMembers]
  exact Option.or_none

/-- A member whose name is above all names of an ordered list comes last. -/
theorem insertMember_of_lt {name : String} {value : Json} {members : List (String × Json)}
    (h : ∀ m ∈ members, m.1 < name) :
    insertMember name value members = members ++ [(name, value)] := by
  induction members with
  | nil => rfl
  | cons m rest ih =>
    have hm := h m List.mem_cons_self
    rw [insertMember, if_neg (String.lt_asymm hm), if_neg (String.ne_of_lt hm).symm,
      ih (fun m' hm' => h m' (List.mem_cons_of_mem m hm')), List.cons_append]

/-- Members that are in order are left as they are. -/
theorem ofMembers_of_sorted {members : List (String × Json)} (h : Sorted members) :
    ofMembers members = .object members := by
  -- the induction puts member by member behind those that are done, which are all below
  have hgeneral : ∀ (members done : List (String × Json)),
      ((done ++ members).map Prod.fst).Pairwise (· < ·) →
      members.foldl (fun done m => insertMember m.1 m.2 done) done = done ++ members := by
    intro members
    induction members with
    | nil => exact fun done _ => (List.append_nil done).symm
    | cons m rest ih =>
      intro done hsorted
      have hbelow : ∀ m' ∈ done, m'.1 < m.1 := by
        rw [List.map_append, List.pairwise_append] at hsorted
        exact fun m' hm' => hsorted.2.2 m'.1 (List.mem_map_of_mem hm') m.1 (by simp)
      rw [List.foldl_cons, insertMember_of_lt hbelow, ih]
      · simp
      · simpa using hsorted
  rw [ofMembers, hgeneral members [] (by simpa using sorted_names h), List.nil_append]

/-- A canonical value is in order already. -/
theorem normal_eq_self {v : Json} (h : Canonical v) : v.normal = v := by
  induction h with
  | null => rfl
  | bool b => rfl
  | number n => rfl
  | string s => rfl
  | array items _ ih =>
    rw [normal, normalItems_eq_map, List.map_congr_left ih, List.map_id']
  | object members sorted _ ih =>
    have hsame : members.map (fun m => (m.1, m.2.normal)) = members := by
      rw [List.map_congr_left (g := id) fun m hm => by rw [ih m hm]; rfl, List.map_id]
    rw [normal, normalMembers_eq_map, hsame, ofMembers_of_sorted sorted]

/-- Only `null` becomes `null`. -/
theorem normal_eq_null_iff {v : Json} : v.normal = .null ↔ v = .null := by
  cases v with
  | null => simp [normal]
  | bool _ => simp [normal]
  | number _ => simp [normal]
  | string _ => simp [normal]
  | array _ => simp [normal]
  | object _ => simp [normal, ofMembers]

/-- A value that is put into order stays of its kind. -/
theorem kind_normal (v : Json) : v.normal.kind = v.kind := by
  cases v with
  | null => rfl
  | bool _ => rfl
  | number _ => rfl
  | string _ => rfl
  | array _ => rfl
  | object _ => rfl

end DaemonRpc.Json
