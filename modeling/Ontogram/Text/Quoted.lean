import Ontogram.Text.Numbered

/-!
# Quoted lists of labels

How an error text lists labels: `["a", "b"]`. Inside the quotes, a quote and a backslash have a
backslash before them, line breaks, tabs and NUL are written `\n`, `\r`, `\t` and `\0`, and the
characters of `Text/Numbered` are written by number, as in `\u{200b}`.
-/

namespace Ontogram.Text

/-- The hexadecimal digits of a number, in small letters and without leading zeros. -/
def hexDigits (n : Nat) : List Char :=
  Nat.toDigits 16 n

/-- A character as it stands between quotes. -/
def quotedChar (c : Char) : List Char :=
  if c = '\x00' then ['\\', '0']
  else if c = '\t' then ['\\', 't']
  else if c = '\n' then ['\\', 'n']
  else if c = '\r' then ['\\', 'r']
  else if c = '"' || c = '\\' then ['\\', c]
  else if isNumbered c then ['\\', 'u', '\x7b'] ++ hexDigits c.toNat ++ ['\x7d']
  else [c]

/-- A text between quotes. -/
def quoted (s : String) : String :=
  String.ofList (('"' :: s.toList.flatMap quotedChar) ++ ['"'])

/-- A list of quoted texts. -/
def quotedList (ss : List String) : String :=
  "[" ++ String.intercalate ", " (ss.map quoted) ++ "]"

end Ontogram.Text
