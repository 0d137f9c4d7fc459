import StackMachine.Text.Printable

/-!
# Text — Quoted

A text between double quotes, on one line and without a character that would not show.  The
backslash, the double quote, the tab, the line ends and NUL have escapes of one letter; any other
character that does not show by itself is written as its code point in lowercase hexadecimal.  The
single quote stands for itself.
-/

namespace StackMachine.Text

/-- `\u{h}`, for the shortest lowercase hexadecimal `h` of the code point. -/
def codePointEscape (c : Char) : List Char :=
  ['\\', 'u', '\x7b'] ++ Nat.toDigits 16 c.toNat ++ ['\x7d']

/-- A character as it stands between the quotes. -/
def quoteChar (c : Char) : List Char :=
  if c = '\x00' then ['\\', '0']
  else if c = '\t' then ['\\', 't']
  else if c = '\n' then ['\\', 'n']
  else if c = '\r' then ['\\', 'r']
  else if c = '"' then ['\\', '"']
  else if c = '\\' then ['\\', '\\']
  else if !isPrintable c then codePointEscape c
  else [c]

/-- The text between quotes, every character escaped that needs it. -/
def quoted (s : String) : String := String.ofList ('"' :: s.toList.flatMap quoteChar ++ ['"'])

end StackMachine.Text
