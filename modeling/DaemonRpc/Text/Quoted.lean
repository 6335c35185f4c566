import DaemonRpc.Text.Hidden

/-!
# Quoted text

Logs and error messages show a text between quotation marks, so that its end and its
unprintable characters can be seen.  `quote` writes it: a quotation mark and a backslash
take a backslash, the usual controls have a letter, and every other hidden character is
spelled by its code point in hexadecimal.
-/

namespace DaemonRpc.Text

/-- The code point of a character in lower-case hexadecimal, without leading zeros. -/
def hexCode (c : Char) : List Char := Nat.toDigits 16 c.toNat

/-- How one character stands inside quoted text. -/
def quoteChar (c : Char) : List Char :=
  if c = '\x00' then ['\\', '0']
  else if c = '\t' then ['\\', 't']
  else if c = '\r' then ['\\', 'r']
  else if c = '\n' then ['\\', 'n']
  else if c = '\\' then ['\\', '\\']
  else if c = '\x22' then ['\\', '\x22']
  else if isHidden c then ['\\', 'u', '\x7b'] ++ hexCode c ++ ['\x7d']
  else [c]

/-- A text between quotation marks, with every hidden character spelled out. -/
def quote (s : String) : String :=
  String.ofList ('\x22' :: s.toList.flatMap quoteChar ++ ['\x22'])

/-- A list of texts, each quoted, in brackets. -/
def quoteList (xs : List String) : String :=
  "[" ++ ", ".intercalate (xs.map quote) ++ "]"

/-- An optional text: `None`, or `Some` with the quoted text. -/
def quoteOption : Option String → String
  | none => "None"
  | some s => "Some(" ++ quote s ++ ")"

end DaemonRpc.Text
