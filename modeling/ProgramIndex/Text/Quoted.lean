import ProgramIndex.Text.Hidden

/-!
Texts in double quotes, as messages and descriptions show them.
-/

namespace ProgramIndex.Text

/-- One character of a quoted text. A quote and a backslash get a backslash; a
character without a visible form is named by its code point in hexadecimal. -/
def quoteChar (c : Char) : List Char :=
  if c = '\x00' then ['\\', '0']
  else if c = '\t' then ['\\', 't']
  else if c = '\r' then ['\\', 'r']
  else if c = '\n' then ['\\', 'n']
  else if c = '"' then ['\\', '"']
  else if c = '\\' then ['\\', '\\']
  else if isHidden c then ['\\', 'u', '\x7b'] ++ Nat.toDigits 16 c.toNat ++ ['\x7d']
  else [c]

def quote (text : String) : String :=
  String.ofList ('"' :: text.toList.flatMap quoteChar ++ ['"'])

/-- A list in square brackets, its items already written out. -/
def bracket (items : List String) : String :=
  "[" ++ ", ".intercalate items ++ "]"

end ProgramIndex.Text
