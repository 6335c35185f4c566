import DaemonRpc.Json.Basic
import DaemonRpc.Json.NumberText

/-!
# The texts of a JSON value

A value has two texts.  The compact one, `Json.text`, has no blanks and is what goes over
the wire; the indented one, `Json.indentedText`, is for people and gives every item and
member a line of its own.  Both write the members of an object in the order of the list.

`escapeChar` says how a character stands inside a string: a quotation mark, a backslash and
the control characters are escaped, and every other character is written as it is.
-/

namespace DaemonRpc

namespace Json

/-- The lower-case hexadecimal digit of a number below sixteen. -/
def hexDigit (n : Nat) : Char := Nat.digitChar n

/-- How one character stands inside a string. -/
def escapeChar (c : Char) : List Char :=
  if c = '\x22' then ['\\', '\x22']
  else if c = '\\' then ['\\', '\\']
  else if c = '\x08' then ['\\', 'b']
  else if c = '\x0c' then ['\\', 'f']
  else if c = '\n' then ['\\', 'n']
  else if c = '\r' then ['\\', 'r']
  else if c = '\t' then ['\\', 't']
  else if c.toNat < 0x20 then
    ['\\', 'u', '0', '0', hexDigit (c.toNat / 16), hexDigit (c.toNat % 16)]
  else [c]

/-- A string between quotation marks. -/
def stringChars (s : String) : List Char :=
  '\x22' :: s.toList.flatMap escapeChar ++ ['\x22']

/-- The text of a whole number. -/
def wholeChars (n : Int) : List Char :=
  if n < 0 then '-' :: Nat.toDigits 10 n.natAbs else Nat.toDigits 10 n.natAbs

/-- The text of a number. -/
def numberChars : Number → List Char
  | .whole n => wholeChars n.val
  | .double x => if x.isFinite then NumberFormat.wire.floatChars x else "null".toList

/-! ## The compact text -/

mutual

/-- The compact text of a value. -/
def chars : Json → List Char
  | .null => "null".toList
  | .bool b => if b then "true".toList else "false".toList
  | .number n => numberChars n
  | .string s => stringChars s
  | .array items => '[' :: itemsChars items
  | .object members => '\x7b' :: membersChars members
termination_by structural v => v

/-- Items up to the closing bracket. -/
def itemsChars : List Json → List Char
  | [] => [']']
  | v :: rest => chars v ++ moreItemsChars rest
termination_by structural vs => vs

/-- Further items, each after a comma. -/
def moreItemsChars : List Json → List Char
  | [] => [']']
  | v :: rest => ',' :: chars v ++ moreItemsChars rest
termination_by structural vs => vs

/-- Members up to the closing brace. -/
def membersChars : List (String × Json) → List Char
  | [] => ['\x7d']
  | m :: rest => memberChars m ++ moreMembersChars rest
termination_by structural ms => ms

/-- Further members, each after a comma. -/
def moreMembersChars : List (String × Json) → List Char
  | [] => ['\x7d']
  | m :: rest => ',' :: memberChars m ++ moreMembersChars rest
termination_by structural ms => ms

/-- A name, a colon and a value. -/
def memberChars : String × Json → List Char
  | (name, v) => stringChars name ++ ':' :: chars v
termination_by structural m => m

end

/-- The compact text of a value. -/
def text (v : Json) : String := String.ofList v.chars

/-! ## The indented text -/

/-- A new line, indented by two blanks for each level. -/
def lineBreak (level : Nat) : List Char := '\n' :: List.replicate (2 * level) ' '

mutual

/-- The indented text of a value that stands on the given level. -/
def indented (level : Nat) : Json → List Char
  | .null => "null".toList
  | .bool b => if b then "true".toList else "false".toList
  | .number n => numberChars n
  | .string s => stringChars s
  | .array items => '[' :: indentedItems level items
  | .object members => '\x7b' :: indentedMembers level members
termination_by structural v => v

/-- Items, each on its own line, up to the closing bracket; no items need no line. -/
def indentedItems (level : Nat) : List Json → List Char
  | [] => [']']
  | v :: rest => lineBreak (level + 1) ++ indented (level + 1) v ++ moreIndentedItems level rest
termination_by structural vs => vs

/-- Further items, each after a comma. -/
def moreIndentedItems (level : Nat) : List Json → List Char
  | [] => lineBreak level ++ [']']
  | v :: rest =>
    ',' :: lineBreak (level + 1) ++ indented (level + 1) v ++ moreIndentedItems level rest
termination_by structural vs => vs

/-- Members, each on its own line, up to the closing brace; no members need no line. -/
def indentedMembers (level : Nat) : List (String × Json) → List Char
  | [] => ['\x7d']
  | m :: rest =>
    lineBreak (level + 1) ++ indentedMember (level + 1) m ++ moreIndentedMembers level rest
termination_by structural ms => ms

/-- Further members, each after a comma. -/
def moreIndentedMembers (level : Nat) : List (String × Json) → List Char
  | [] => lineBreak level ++ ['\x7d']
  | m :: rest =>
    ',' :: lineBreak (level + 1) ++ indentedMember (level + 1) m ++ moreIndentedMembers level rest
termination_by structural ms => ms

/-- A name, a colon, a blank and a value. -/
def indentedMember (level : Nat) : String × Json → List Char
  | (name, v) => stringChars name ++ ':' :: ' ' :: indented level v
termination_by structural m => m

end

/-- The indented text of a value. -/
def indentedText (v : Json) : String := String.ofList (indented 0 v)

end Json

end DaemonRpc
