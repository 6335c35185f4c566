import DaemonRpc.Proofs.Json.RoundTrip

/-!
# Values as they are written

The reader keeps the last member of a repeated name and puts the names in order.  What is written in
a text may repeat names, in any order.  `Json.written` reads a text as it is written, with every
member in its place, and `read_eq` shows that the reader makes nothing but the ordered value of it.

* `Json.normal` is the ordered value, and `exists_normal_object` says what is found in it.
* Both loops are the same but for what they do with a member: `readItems_map`, `readMembers_map`.
-/

namespace DaemonRpc.Json

open Ascii

/-! ## Reading what is written -/

/-- The members of an object after its opening brace, in the order of the text, after `done`. -/
def writtenMembers (item : Bytes → Except Fault (Json × Bytes)) :
    Nat → Bool → List (String × Json) → Bytes → Except Fault (List (String × Json) × Bytes)
  | 0, _, _, s => .error (.here s .unfinishedObject)
  | fuel + 1, first, done, s => do
    let (turn, s) ← nextMember first s
    match turn with
    | .done => .ok (done, s)
    | .next =>
      let (name, s) ← stringToken s
      let s ← expectColon s
      let (v, s) ← item s
      writtenMembers item fuel false (done ++ [(name, v)]) s

/-- A value as it is written. -/
def writtenValue : Nat → Bytes → Except Fault (Json × Bytes)
  | depth, s =>
    match skipBlanks s with
    | [] => .error (.here [] .unfinishedValue)
    | b :: s =>
      if b = openBracket then
        match depth with
        | 0 => .error (.ahead (b :: s) .tooDeep)
        | depth + 1 => do
          let (reversed, s) ← readItems (writtenValue depth) (s.length + 1) [] s
          .ok (.array reversed.reverse, s)
      else if b = openBrace then
        match depth with
        | 0 => .error (.ahead (b :: s) .tooDeep)
        | depth + 1 => do
          let (members, s) ← writtenMembers (writtenValue depth) (s.length + 1) true [] s
          .ok (.object members, s)
      else scalar b s

/-- What is written in the bytes. -/
def written (input : Bytes) : Except Fault Json := do
  let (v, s) ← writtenValue depthLimit input
  expectEnd s
  return v

/-! ## The reader puts it into order -/

section Loops

variable {item item' : Bytes → Except Fault (Json × Bytes)}

/-- Items that are put into order one by one are put into order together. -/
theorem readItems_map (h : ∀ s, item' s = (item s).map fun p => (p.1.normal, p.2)) (fuel : Nat)
    (done : List Json) (s : Bytes) :
    readItems item' fuel (done.map normal) s =
      (readItems item fuel done s).map fun p => (p.1.map normal, p.2) := by
  induction fuel generalizing done s with
  | zero => rfl
  | succ fuel ih =>
    rw [readItems, readItems, List.isEmpty_map]
    cases nextItem done.isEmpty s with
    | error _ => rfl
    | ok next =>
      obtain ⟨turn, s'⟩ := next
      cases turn with
      | done => rfl
      | next =>
        show (item' s' >>= _) = _
        rw [h]
        show _ = Except.map _ (item s' >>= _)
        cases item s' with
        | error _ => rfl
        | ok read =>
          exact ih (read.1 :: done) read.2

/-- Members that are put into their places one by one are put into order together. -/
theorem readMembers_map (h : ∀ s, item' s = (item s).map fun p => (p.1.normal, p.2)) (fuel : Nat)
    (first : Bool) (done : List (String × Json)) (s : Bytes) :
    readMembers item' fuel first
        ((normalMembers done).foldl (fun done m => insertMember m.1 m.2 done) []) s =
      (writtenMembers item fuel first done s).map fun p =>
        ((normalMembers p.1).foldl (fun done m => insertMember m.1 m.2 done) [], p.2) := by
  induction fuel generalizing first done s with
  | zero => rfl
  | succ fuel ih =>
    rw [readMembers, writtenMembers]
    cases nextMember first s with
    | error _ => rfl
    | ok next =>
      obtain ⟨turn, s₁⟩ := next
      cases turn with
      | done => rfl
      | next =>
        show (stringToken s₁ >>= _) = Except.map _ (stringToken s₁ >>= _)
        cases stringToken s₁ with
        | error _ => rfl
        | ok token =>
          obtain ⟨name, s₂⟩ := token
          show (expectColon s₂ >>= _) = Except.map _ (expectColon s₂ >>= _)
          cases expectColon s₂ with
          | error _ => rfl
          | ok s₃ =>
            show (item' s₃ >>= _) = Except.map _ (item s₃ >>= _)
            rw [h]
            cases item s₃ with
            | error _ => rfl
            | ok value =>
              obtain ⟨v, s₄⟩ := value
              show readMembers item' fuel false (insertMember name v.normal _) s₄ = _
              have hdone : insertMember name v.normal
                  ((normalMembers done).foldl (fun done m => insertMember m.1 m.2 done) []) =
                  (normalMembers (done ++ [(name, v)])).foldl
                    (fun done m => insertMember m.1 m.2 done) [] := by
                simp [normalMembers_eq_map]
              rw [hdone]
              exact ih false (done ++ [(name, v)]) s₄

end Loops

/-- What is read without items or members is in order already. -/
theorem scalar_map_normal (b : UInt8) (s : Bytes) :
    scalar b s = (scalar b s).map fun p => (p.1.normal, p.2) := by
  cases h : scalar b s with
  | error _ => rfl
  | ok value =>
    obtain ⟨v, rest⟩ := value
    rcases scalar_cases h with rfl | ⟨_, rfl⟩ | ⟨_, _, _, -, rfl⟩ | ⟨_, rfl⟩
    · rfl
    · rfl
    · rfl
    · rfl

/-- A value that is read is the written one, put into order. -/
theorem readValue_eq (depth : Nat) (s : Bytes) :
    readValue depth s = (writtenValue depth s).map fun p => (p.1.normal, p.2) := by
  induction depth generalizing s with
  | zero =>
    -- no arrays or objects at all, and the two readers do the same
    rw [readValue, writtenValue]
    cases skipBlanks s with
    | nil => rfl
    | cons b s =>
      dsimp only
      by_cases hbracket : b = openBracket
      · rw [if_pos hbracket]
        rfl
      · by_cases hbrace : b = openBrace
        · rw [if_neg hbracket, if_pos hbrace]
          rfl
        · rw [if_neg hbracket, if_neg hbrace]
          exact scalar_map_normal b s
  | succ depth ih =>
    rw [readValue, writtenValue]
    cases skipBlanks s with
    | nil => rfl
    | cons b s =>
      dsimp only
      by_cases hbracket : b = openBracket
      · have hitems := readItems_map ih (s.length + 1) [] s
        rw [List.map_nil] at hitems
        rw [if_pos hbracket, if_pos hbracket, hitems]
        cases readItems (writtenValue depth) (s.length + 1) [] s with
        | error _ => rfl
        | ok items =>
          show Except.ok (Json.array (items.1.map normal).reverse, items.2) = _
          rw [← List.map_reverse, ← normalItems_eq_map]
          rfl
      · by_cases hbrace : b = openBrace
        · have hmembers := readMembers_map ih (s.length + 1) true [] s
          rw [normalMembers, List.foldl_nil] at hmembers
          rw [if_neg hbracket, if_neg hbracket, if_pos hbrace, if_pos hbrace, hmembers]
          cases writtenMembers (writtenValue depth) (s.length + 1) true [] s with
          | error _ => rfl
          | ok members => rfl
        · rw [if_neg hbracket, if_neg hbracket, if_neg hbrace, if_neg hbrace]
          exact scalar_map_normal b s

/-- What is read is what is written, put into order. -/
theorem read_eq (input : Bytes) : read input = (written input).map normal := by
  rw [read, readValue_eq, written]
  cases writtenValue depthLimit input with
  | error _ => rfl
  | ok value =>
    show (expectEnd value.2 >>= _) = Except.map _ (expectEnd value.2 >>= _)
    cases expectEnd value.2 with
    | error _ => rfl
    | ok _ => rfl

end DaemonRpc.Json
