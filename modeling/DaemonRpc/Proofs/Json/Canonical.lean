import DaemonRpc.Json.Reader
import DaemonRpc.Proofs.Except
import Mathlib.Tactic.Common

/-!
# Values that were read are canonical

The reader puts each member at its place as it comes, so the members of every object inside a
value that was read have strictly ascending names: `Json.read_canonical`.  The value is also no
deeper than the reader goes: `Json.read_depthAtMost`.

* The order of the members.  `sorted_insertMember` is what one more member keeps, and
  `sorted_names` turns the order of neighbours into an order of all names.
* Finding a member.  `find?_eq_none_iff` says when a name has none.  Where a name stands more than
  once `findLast?` counts, and `find?_foldl_insertMember` says that this is what is found after
  members were put in one by one.
* The loops over items and members.  Each is an induction on its fuel, over a reader of one
  value; what holds of every value that it answers holds of all items and members.
* `readValue_induction` is the induction on the depth that the two main results share.
-/

namespace DaemonRpc.Json

/-! ## The order of the members -/

/-- A name that is neither below nor equal to another is above it. -/
theorem name_lt_of_not_lt {a b : String} (hlt : ¬ a < b) (hne : a ≠ b) : b < a := by
  by_contra hba
  exact hne (String.le_antisymm (String.not_lt.1 hba) (String.not_lt.1 hlt))

/-- What stands behind the first member is in order too. -/
theorem Sorted.tail {m : String × Json} {members : List (String × Json)}
    (h : Sorted (m :: members)) : Sorted members := by
  cases members with
  | nil => trivial
  | cons m' rest => exact h.2

/-- A member that is put in front of an ordered list keeps the order if its name is below the
first one. -/
theorem Sorted.cons {m : String × Json} {members : List (String × Json)} (h : Sorted members)
    (hlt : ∀ m' ∈ members.head?, m.1 < m'.1) : Sorted (m :: members) := by
  cases members with
  | nil => trivial
  | cons m' rest => exact ⟨hlt m' rfl, h⟩

/-- The first name after an insertion is the inserted one or the old first one. -/
theorem head?_insertMember {name : String} {value : Json} {members : List (String × Json)}
    {m : String × Json} (h : m ∈ (insertMember name value members).head?) :
    m.1 = name ∨ m ∈ members.head? := by
  cases members with
  | nil =>
    rw [insertMember] at h
    obtain rfl : (name, value) = m := by simpa using h
    exact Or.inl rfl
  | cons m' rest =>
    rw [insertMember] at h
    split at h
    · obtain rfl : (name, value) = m := by simpa using h
      exact Or.inl rfl
    · split at h
      · obtain rfl : (name, value) = m := by simpa using h
        exact Or.inl rfl
      · exact Or.inr (by simpa using h)

/-- Inserting a member keeps the names in ascending order. -/
theorem sorted_insertMember (name : String) (value : Json) {members : List (String × Json)}
    (h : Sorted members) : Sorted (insertMember name value members) := by
  induction members with
  | nil => trivial
  | cons m rest ih =>
    rw [insertMember]
    split
    · rename_i hlt
      exact ⟨hlt, h⟩
    · rename_i hlt
      split
      · rename_i heq
        subst heq
        cases rest with
        | nil => trivial
        | cons m' rest => exact h
      · rename_i hne
        refine (ih h.tail).cons fun m' hm' => ?_
        rcases head?_insertMember hm' with heq | hold
        · rw [heq]
          exact name_lt_of_not_lt hlt hne
        · cases rest with
          | nil => simp at hold
          | cons m'' rest =>
            obtain rfl : m'' = m' := by simpa using hold
            exact h.1

/-- In an ordered list each name is below all that follow it. -/
theorem sorted_names {members : List (String × Json)} (h : Sorted members) :
    (members.map Prod.fst).Pairwise (· < ·) := by
  induction members with
  | nil => exact List.Pairwise.nil
  | cons m rest ih =>
    have hrest := ih h.tail
    rw [List.map_cons, List.pairwise_cons]
    refine ⟨fun name hname => ?_, hrest⟩
    cases rest with
    | nil => simp at hname
    | cons m' rest =>
      rw [List.map_cons, List.pairwise_cons] at hrest
      rw [List.map_cons, List.mem_cons] at hname
      rcases hname with rfl | hname
      · exact h.1
      · exact String.lt_trans h.1 (hrest.1 name hname)

/-- The names of an ordered list are all different. -/
theorem sorted_names_nodup {members : List (String × Json)} (h : Sorted members) :
    (members.map Prod.fst).Nodup :=
  (sorted_names h).imp String.ne_of_lt

/-! ## Finding a member -/

/-- A name that no member has is not found. -/
theorem find?_eq_none_iff {name : String} {members : List (String × Json)} :
    find? name members = none ↔ name ∉ members.map Prod.fst := by
  induction members with
  | nil => simp [find?]
  | cons m rest ih =>
    rw [find?, List.map_cons, List.mem_cons]
    by_cases h : name = m.1
    · simp [h]
    · simp [h, ih]

/-- A value that is found is that of a member. -/
theorem mem_of_find? {name : String} {value : Json} {members : List (String × Json)}
    (h : find? name members = some value) : (name, value) ∈ members := by
  induction members with
  | nil => simp [find?] at h
  | cons m rest ih =>
    rw [find?] at h
    split at h
    · rename_i hname
      obtain rfl : m.2 = value := by simpa using h
      subst hname
      exact List.mem_cons_self
    · exact List.mem_cons_of_mem _ (ih h)

/-- A member whose name stands once is found. -/
theorem find?_of_mem {name : String} {value : Json} {members : List (String × Json)}
    (hnames : (members.map Prod.fst).Nodup) (h : (name, value) ∈ members) :
    find? name members = some value := by
  induction members with
  | nil => simp at h
  | cons m rest ih =>
    rw [List.map_cons, List.nodup_cons] at hnames
    rw [find?]
    rcases List.mem_cons.1 h with rfl | hrest
    · simp
    · have hne : name ≠ m.1 := by
        intro hname
        exact hnames.1 (hname ▸ List.mem_map_of_mem (f := Prod.fst) hrest)
      rw [if_neg hne, ih hnames.2 hrest]

/-- The member that was put in is found under its name, and the others under theirs. -/
theorem find?_insertMember (name name' : String) (value : Json) (members : List (String × Json)) :
    find? name (insertMember name' value members) =
      if name = name' then some value else find? name members := by
  induction members with
  | nil => rfl
  | cons m rest ih =>
    rw [insertMember]
    split
    · rfl
    · split
      · rename_i heq
        subst heq
        simp only [find?]
        split <;> rfl
      · rename_i hne
        rw [find?, find?, ih]
        by_cases hname : name = name'
        · subst hname
          simp [hne]
        · simp [hname]

/-! ## The last member of a name -/

/-- The value of the last member of a name. -/
def findLast? (name : String) (members : List (String × Json)) : Option Json :=
  find? name members.reverse

theorem find?_append (name : String) (first rest : List (String × Json)) :
    find? name (first ++ rest) = (find? name first).or (find? name rest) := by
  induction first with
  | nil => rfl
  | cons m first ih =>
    rw [List.cons_append, find?, find?, ih]
    split <;> rfl

theorem findLast?_cons (name : String) (m : String × Json) (members : List (String × Json)) :
    findLast? name (m :: members) =
      (findLast? name members).or (if name = m.1 then some m.2 else none) := by
  rw [findLast?, List.reverse_cons, find?_append]
  rfl

/-- A name that no member has is not found. -/
theorem findLast?_eq_none_iff {name : String} {members : List (String × Json)} :
    findLast? name members = none ↔ name ∉ members.map Prod.fst := by
  rw [findLast?, find?_eq_none_iff, List.map_reverse, List.mem_reverse]

/-- A value that is found is that of a member. -/
theorem mem_of_findLast? {name : String} {value : Json} {members : List (String × Json)}
    (h : findLast? name members = some value) : (name, value) ∈ members :=
  List.mem_reverse.1 (mem_of_find? h)

/-- A member whose name stands once is the last of its name. -/
theorem findLast?_of_mem {name : String} {value : Json} {members : List (String × Json)}
    (hnames : (members.map Prod.fst).Nodup) (h : (name, value) ∈ members) :
    findLast? name members = some value := by
  apply find?_of_mem
  · rw [List.map_reverse]
    exact (List.reverse_perm _).nodup_iff.2 hnames
  · exact List.mem_reverse.2 h

/-- Where no name stands twice, the first member of a name is the last one. -/
theorem findLast?_eq_find? {members : List (String × Json)}
    (hnames : (members.map Prod.fst).Nodup) (name : String) :
    findLast? name members = find? name members := by
  cases hfind : find? name members with
  | none => exact findLast?_eq_none_iff.2 (find?_eq_none_iff.1 hfind)
  | some value => exact findLast?_of_mem hnames (mem_of_find? hfind)

/-- After members were put in one by one the last of each name is found. -/
theorem find?_foldl_insertMember (members done : List (String × Json)) (name : String) :
    find? name (members.foldl (fun done m => insertMember m.1 m.2 done) done) =
      (findLast? name members).or (find? name done) := by
  induction members generalizing done with
  | nil => rfl
  | cons m rest ih =>
    rw [List.foldl_cons, ih, find?_insertMember, findLast?_cons, Option.or_assoc]
    split <;> rfl

/-- Members that are put in one by one are in order. -/
theorem sorted_foldl_insertMember (members : List (String × Json)) {done : List (String × Json)}
    (h : Sorted done) :
    Sorted (members.foldl (fun done m => insertMember m.1 m.2 done) done) := by
  induction members generalizing done with
  | nil => exact h
  | cons m rest ih => exact ih (sorted_insertMember m.1 m.2 h)

/-! ## What the readers build -/

/-- A value found in a canonical object is canonical. -/
theorem Canonical.find? {name : String} {value : Json} {members : List (String × Json)}
    (h : Canonical (.object members)) (hfind : Json.find? name members = some value) :
    Canonical value := by
  cases h with
  | object _ _ each => exact each (name, value) (mem_of_find? hfind)

/-- Every member of an insertion is the inserted one or an old one. -/
theorem mem_insertMember {name : String} {value : Json} {members : List (String × Json)}
    {m : String × Json} (h : m ∈ insertMember name value members) :
    m = (name, value) ∨ m ∈ members := by
  induction members with
  | nil =>
    rw [insertMember] at h
    exact Or.inl (by simpa using h)
  | cons m' rest ih =>
    rw [insertMember] at h
    split at h
    · rw [List.mem_cons] at h
      exact h
    · split at h
      · rw [List.mem_cons] at h
        exact h.imp id (List.mem_cons_of_mem _)
      · rw [List.mem_cons] at h
        rcases h with rfl | h
        · exact Or.inr List.mem_cons_self
        · exact (ih h).imp id (List.mem_cons_of_mem _)

section Loops

variable {item : Bytes → Except Fault (Json × Bytes)}

/-- Whatever every reading of one item has, all items of an array have. -/
theorem readItems_forall {P : Json → Prop} (hitem : ∀ s v rest, item s = .ok (v, rest) → P v) :
    ∀ (fuel : Nat) (done : List Json) (s : Bytes) (items : List Json) (rest : Bytes),
      readItems item fuel done s = .ok (items, rest) → (∀ v ∈ done, P v) → ∀ v ∈ items, P v := by
  intro fuel
  induction fuel with
  | zero =>
    intro done s items rest h
    simp [readItems] at h
  | succ fuel ih =>
    intro done s items rest h hdone
    rw [readItems] at h
    obtain ⟨⟨turn, s'⟩, -, h⟩ := bind_eq_ok_iff.1 h
    cases turn with
    | done =>
      obtain ⟨rfl, rfl⟩ : done = items ∧ s' = rest := by simpa using h
      exact hdone
    | next =>
      obtain ⟨⟨v, s''⟩, hv, h⟩ := bind_eq_ok_iff.1 h
      refine ih (v :: done) s'' items rest h fun u hu => ?_
      rcases List.mem_cons.1 hu with rfl | hu
      · exact hitem s' u s'' hv
      · exact hdone u hu

/-- The members of an object are in ascending order, and whatever every reading of one value has,
all their values have. -/
theorem readMembers_forall {P : Json → Prop} (hitem : ∀ s v rest, item s = .ok (v, rest) → P v) :
    ∀ (fuel : Nat) (first : Bool) (done : List (String × Json)) (s : Bytes)
      (members : List (String × Json)) (rest : Bytes),
      readMembers item fuel first done s = .ok (members, rest) →
      Sorted done → (∀ m ∈ done, P m.2) → Sorted members ∧ ∀ m ∈ members, P m.2 := by
  intro fuel
  induction fuel with
  | zero =>
    intro first done s members rest h
    simp [readMembers] at h
  | succ fuel ih =>
    intro first done s members rest h hsorted hdone
    rw [readMembers] at h
    obtain ⟨⟨turn, s₁⟩, -, h⟩ := bind_eq_ok_iff.1 h
    cases turn with
    | done =>
      obtain ⟨rfl, rfl⟩ : done = members ∧ s₁ = rest := by simpa using h
      exact ⟨hsorted, hdone⟩
    | next =>
      obtain ⟨⟨name, s₂⟩, -, h⟩ := bind_eq_ok_iff.1 h
      obtain ⟨s₃, -, h⟩ := bind_eq_ok_iff.1 h
      obtain ⟨⟨v, s₄⟩, hv, h⟩ := bind_eq_ok_iff.1 h
      refine ih false (insertMember name v done) s₄ members rest h
        (sorted_insertMember name v hsorted) fun m hm => ?_
      rcases mem_insertMember hm with rfl | hm
      · exact hitem s₃ v s₄ hv
      · exact hdone m hm

end Loops

/-- What is no array and no object is one of the four other kinds. -/
theorem scalar_cases {b : UInt8} {s rest : Bytes} {v : Json} (h : scalar b s = .ok (v, rest)) :
    v = .null ∨ (∃ b, v = .bool b) ∨
      (∃ n s rest, numberToken s = .ok (n, rest) ∧ v = .number n) ∨ ∃ text, v = .string text := by
  unfold scalar at h
  split_ifs at h
  · obtain ⟨_, -, h⟩ := bind_eq_ok_iff.1 h
    obtain ⟨rfl, -⟩ : .null = v ∧ _ := by simpa using h
    exact Or.inl rfl
  · obtain ⟨_, -, h⟩ := bind_eq_ok_iff.1 h
    obtain ⟨rfl, -⟩ : .bool true = v ∧ _ := by simpa using h
    exact Or.inr (Or.inl ⟨true, rfl⟩)
  · obtain ⟨_, -, h⟩ := bind_eq_ok_iff.1 h
    obtain ⟨rfl, -⟩ : .bool false = v ∧ _ := by simpa using h
    exact Or.inr (Or.inl ⟨false, rfl⟩)
  · obtain ⟨⟨n, s'⟩, hnumber, h⟩ := bind_eq_ok_iff.1 h
    obtain ⟨rfl, -⟩ : .number n = v ∧ s' = rest := by simpa using h
    exact Or.inr (Or.inr (Or.inl ⟨n, _, _, hnumber, rfl⟩))
  · obtain ⟨⟨text, _⟩, -, h⟩ := bind_eq_ok_iff.1 h
    obtain ⟨rfl, -⟩ : .string text = v ∧ _ := by simpa using h
    exact Or.inr (Or.inr (Or.inr ⟨text, rfl⟩))

/-- What a value that was read can be: one without parts, or one level of values that were read
with less depth. -/
theorem readValue_induction {P : Nat → Json → Prop}
    (scalar : ∀ n v, v = .null ∨ (∃ b, v = .bool b) ∨
      (∃ x s rest, numberToken s = .ok (x, rest) ∧ v = .number x) ∨
      (∃ text, v = .string text) → P n v)
    (array : ∀ n items, (∀ v ∈ items, P n v) → P (n + 1) (.array items))
    (object : ∀ n members, Sorted members → (∀ m ∈ members, P n m.2) →
      P (n + 1) (.object members)) :
    ∀ (depth : Nat) (s : Bytes) (v : Json) (rest : Bytes),
      readValue depth s = .ok (v, rest) → P depth v := by
  intro depth
  induction depth with
  | zero =>
    intro s v rest h
    rw [readValue] at h
    split at h
    · simp at h
    · split at h
      · simp at h
      · split at h
        · simp at h
        · exact scalar 0 v (scalar_cases h)
  | succ depth ih =>
    intro s v rest h
    rw [readValue] at h
    split at h
    · simp at h
    · rename_i b s' _
      split_ifs at h
      · obtain ⟨⟨items, s''⟩, hitems, h⟩ := bind_eq_ok_iff.1 h
        obtain ⟨rfl, -⟩ : .array items.reverse = v ∧ s'' = rest := by simpa using h
        refine array depth _ fun u hu => ?_
        exact readItems_forall ih _ [] s' items s'' hitems (by simp) u (List.mem_reverse.1 hu)
      · obtain ⟨⟨members, s''⟩, hmembers, h⟩ := bind_eq_ok_iff.1 h
        obtain ⟨rfl, -⟩ : .object members = v ∧ s'' = rest := by simpa using h
        obtain ⟨hsorted, heach⟩ := readMembers_forall ih _ true [] s' members s'' hmembers trivial
          (by simp)
        exact object depth members hsorted heach
      · exact scalar (depth + 1) v (scalar_cases h)

/-- A value that was read at any depth is canonical. -/
theorem readValue_canonical (depth : Nat) (s : Bytes) (v : Json) (rest : Bytes)
    (h : readValue depth s = .ok (v, rest)) : Canonical v := by
  refine readValue_induction (P := fun _ v => Canonical v) ?_ ?_ ?_ depth s v rest h
  · intro _ v hv
    rcases hv with rfl | ⟨b, rfl⟩ | ⟨x, _, _, -, rfl⟩ | ⟨text, rfl⟩
    · exact Canonical.null
    · exact Canonical.bool b
    · exact Canonical.number x
    · exact Canonical.string text
  · exact fun _ items each => Canonical.array items each
  · exact fun _ members sorted each => Canonical.object members sorted each

/-- A value that was read is no deeper than the reader went. -/
theorem readValue_depthAtMost (depth : Nat) (s : Bytes) (v : Json) (rest : Bytes)
    (h : readValue depth s = .ok (v, rest)) : DepthAtMost depth v := by
  refine readValue_induction (P := DepthAtMost) ?_ ?_ ?_ depth s v rest h
  · intro n v hv
    rcases hv with rfl | ⟨b, rfl⟩ | ⟨x, _, _, -, rfl⟩ | ⟨text, rfl⟩
    · exact DepthAtMost.null n
    · exact DepthAtMost.bool n b
    · exact DepthAtMost.number n x
    · exact DepthAtMost.string n text
  · exact DepthAtMost.array
  · exact fun n members _ each => DepthAtMost.object n members each

/-- A value that was read from a whole text was read with all the depth there is. -/
theorem readValue_of_read {input : Bytes} {v : Json} (h : read input = .ok v) :
    ∃ rest, readValue depthLimit input = .ok (v, rest) := by
  obtain ⟨⟨u, rest⟩, hvalue, h⟩ := bind_eq_ok_iff.1 h
  obtain ⟨_, -, h⟩ := bind_eq_ok_iff.1 h
  obtain rfl : u = v := by simpa [pure, Except.pure] using h
  exact ⟨rest, hvalue⟩

/-- A value that was read from a whole text is canonical. -/
theorem read_canonical {input : Bytes} {v : Json} (h : read input = .ok v) : Canonical v := by
  obtain ⟨rest, hvalue⟩ := readValue_of_read h
  exact readValue_canonical _ _ _ _ hvalue

/-- A value that was read from a whole text is within the limit. -/
theorem read_depthAtMost {input : Bytes} {v : Json} (h : read input = .ok v) :
    DepthAtMost depthLimit v := by
  obtain ⟨rest, hvalue⟩ := readValue_of_read h
  exact readValue_depthAtMost _ _ _ _ hvalue

end DaemonRpc.Json
