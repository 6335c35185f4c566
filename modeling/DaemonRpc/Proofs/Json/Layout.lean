import DaemonRpc.Json.Printer
import DaemonRpc.Json.Reader.Token
import DaemonRpc.Proofs.Json.Normal
import DaemonRpc.Proofs.Text.Utf8

/-!
# The texts of a value

Between the parts of an array or an object a text may have blanks.  `Spells` are the texts of a
value in all such layouts, and the two printers write two of them: `spells_chars` is the compact
text and `spells_indented` the one on lines of its own.
-/

namespace DaemonRpc.Json

open Ascii Bytes

/-- Nothing but blanks. -/
def Blank (s : Bytes) : Prop := ∀ b ∈ s, isBlank b = true

/-- Further parts of a list, each after a comma and a gap, up to the closing bracket. -/
def moreParts (close : Char) (gap last : List Char) : List (List Char) → List Char
  | [] => last ++ [close]
  | part :: parts => ',' :: (gap ++ (part ++ moreParts close gap last parts))

/-- The parts of a list, each after a gap, up to the closing bracket.  No parts need no gap. -/
def listed (close : Char) (gap last : List Char) : List (List Char) → List Char
  | [] => [close]
  | part :: parts => gap ++ (part ++ moreParts close gap last parts)

/-- A member of an object: a name, a colon, a gap and the text of a value. -/
def namedPart (after : List Char) (name : String) (text : List Char) : List Char :=
  stringChars name ++ ':' :: (after ++ text)

/-- The texts of a value.  Between the parts of an array or an object there may be blanks, the same
in front of each part. -/
inductive Spells : List Char → Json → Prop where
  | null : Spells "null".toList .null
  | bool (b : Bool) : Spells (if b then "true".toList else "false".toList) (.bool b)
  | number (n : Whole) : Spells (wholeChars n.val) (.number (.whole n))
  | string (s : String) : Spells (stringChars s) (.string s)
  | array {gap last : List Char} (gap_blank : Blank (ofChars gap))
      (last_blank : Blank (ofChars last)) (text : Json → List Char) (items : List Json)
      (each : ∀ v ∈ items, Spells (text v) v) :
      Spells ('[' :: listed ']' gap last (items.map text)) (.array items)
  | object {gap last after : List Char} (gap_blank : Blank (ofChars gap))
      (last_blank : Blank (ofChars last)) (after_blank : Blank (ofChars after))
      (text : Json → List Char) (members : List (String × Json))
      (each : ∀ m ∈ members, Spells (text m.2) m.2) :
      Spells
        ('\x7b' :: listed '\x7d' gap last
          (members.map fun m => namedPart after m.1 (text m.2)))
        (.object members)

theorem blank_nil : Blank [] := fun _ hb => absurd hb List.not_mem_nil

/-- A new line and its indentation are blank. -/
theorem blank_lineBreak (level : Nat) : Blank (ofChars (lineBreak level)) := by
  intro b hb
  obtain ⟨c, hc, hbyte⟩ := List.mem_flatMap.1 hb
  rcases List.mem_cons.1 hc with rfl | hspace
  · obtain rfl := List.mem_singleton.1 hbyte
    rfl
  · obtain rfl := (List.mem_replicate.1 hspace).2
    obtain rfl := List.mem_singleton.1 hbyte
    rfl

theorem moreItemsChars_eq (items : List Json) :
    moreItemsChars items = moreParts ']' [] [] (items.map chars) := by
  induction items with
  | nil => rfl
  | cons v items ih =>
    rw [moreItemsChars, ih]
    rfl

theorem moreMembersChars_eq (members : List (String × Json)) :
    moreMembersChars members =
      moreParts '\x7d' [] [] (members.map fun m => namedPart [] m.1 (chars m.2)) := by
  induction members with
  | nil => rfl
  | cons m members ih =>
    obtain ⟨name, v⟩ := m
    rw [moreMembersChars, ih]
    rfl

/-- The compact text is a text of the value. -/
theorem spells_chars {v : Json} (h : WholeNumbers v) : Spells (chars v) v := by
  have hnone : Blank (ofChars []) := blank_nil
  induction h with
  | null => exact .null
  | bool b => exact .bool b
  | number n => exact .number n
  | string s => exact .string s
  | array items _ ih =>
    have htext : chars (.array items) = '[' :: listed ']' [] [] (items.map chars) := by
      cases items with
      | nil => rfl
      | cons v items =>
        rw [chars, itemsChars, moreItemsChars_eq]
        rfl
    rw [htext]
    exact .array hnone hnone chars items ih
  | object members _ ih =>
    have htext : chars (.object members) = '\x7b' :: listed '\x7d' [] []
        (members.map fun m => namedPart [] m.1 (chars m.2)) := by
      cases members with
      | nil => rfl
      | cons m members =>
        obtain ⟨name, v⟩ := m
        rw [chars, membersChars, moreMembersChars_eq]
        rfl
    rw [htext]
    exact .object hnone hnone hnone chars members ih

theorem moreIndentedItems_eq (level : Nat) (items : List Json) :
    moreIndentedItems level items = moreParts ']' (lineBreak (level + 1)) (lineBreak level)
      (items.map (indented (level + 1))) := by
  induction items with
  | nil => rfl
  | cons v items ih =>
    rw [moreIndentedItems, ih, List.append_assoc]
    rfl

theorem moreIndentedMembers_eq (level : Nat) (members : List (String × Json)) :
    moreIndentedMembers level members = moreParts '\x7d' (lineBreak (level + 1)) (lineBreak level)
      (members.map fun m => namedPart [' '] m.1 (indented (level + 1) m.2)) := by
  induction members with
  | nil => rfl
  | cons m members ih =>
    obtain ⟨name, v⟩ := m
    rw [moreIndentedMembers, ih, List.append_assoc]
    rfl

/-- The indented text is a text of the value, on whatever level it stands. -/
theorem spells_indented {v : Json} (h : WholeNumbers v) (level : Nat) :
    Spells (indented level v) v := by
  induction h generalizing level with
  | null => exact .null
  | bool b => exact .bool b
  | number n => exact .number n
  | string s => exact .string s
  | array items _ ih =>
    have htext : indented level (.array items) = '[' :: listed ']' (lineBreak (level + 1))
        (lineBreak level) (items.map (indented (level + 1))) := by
      cases items with
      | nil => rfl
      | cons v items =>
        rw [indented, indentedItems, moreIndentedItems_eq, List.append_assoc]
        rfl
    rw [htext]
    exact .array (blank_lineBreak _) (blank_lineBreak _) _ items fun v hv => ih v hv (level + 1)
  | object members _ ih =>
    have htext : indented level (.object members) =
        '\x7b' :: listed '\x7d' (lineBreak (level + 1)) (lineBreak level)
          (members.map fun m => namedPart [' '] m.1 (indented (level + 1) m.2)) := by
      cases members with
      | nil => rfl
      | cons m members =>
        obtain ⟨name, v⟩ := m
        rw [indented, indentedMembers, moreIndentedMembers_eq, List.append_assoc]
        rfl
    have hspace : Blank (ofChars [' ']) := by
      intro b hb
      obtain rfl := List.mem_singleton.1 hb
      rfl
    rw [htext]
    exact .object (blank_lineBreak _) (blank_lineBreak _) hspace _ members
      fun m hm => ih m hm (level + 1)

end DaemonRpc.Json
