import Ontogram.Json.Basic

/-!
# Writing JSON

A value on lines of its own: two blanks of indentation, one item or member a line, `[]` and `{}` for
empty ones. Strings escape the quote, the backslash and the control characters, the common ones by a
letter and the others by number; everything else stands as it is.
-/

namespace Ontogram.Json

/-- A hexadecimal digit in small letters. -/
def hexChar (n : Nat) : Char :=
  if n < 10 then Char.ofNat (0x30 + n) else Char.ofNat (0x61 + n - 10)

/-- A character as it stands in a string literal. -/
def escapedChar (c : Char) : List Char :=
  if c = '"' then ['\\', '"']
  else if c = '\\' then ['\\', '\\']
  else if c = '\x08' then ['\\', 'b']
  else if c = '\x0c' then ['\\', 'f']
  else if c = '\n' then ['\\', 'n']
  else if c = '\r' then ['\\', 'r']
  else if c = '\t' then ['\\', 't']
  else if c.toNat < 0x20 then
    ['\\', 'u', '0', '0', hexChar (c.toNat / 16), hexChar (c.toNat % 16)]
  else [c]

/-- A string literal. -/
def literal (s : String) : List Char :=
  '"' :: (s.toList.flatMap escapedChar ++ ['"'])

/-- A line break and the indentation of a depth. -/
def lineStart (depth : Nat) : List Char :=
  '\n' :: List.replicate (2 * depth) ' '

mutual

/-- The text of a value at a depth. -/
def render (depth : Nat) : Json → List Char
  | .null => "null".toList
  | .bool true => "true".toList
  | .bool false => "false".toList
  | .number text => text.toList
  | .string s => literal s
  | .unreadable => "null".toList
  | .array [] => ['[', ']']
  | .array (item :: items) =>
    '[' :: (lineStart (depth + 1) ++ render (depth + 1) item ++ renderItems (depth + 1) items
      ++ lineStart depth ++ [']'])
  | .object [] => ['\x7b', '\x7d']
  | .object (member :: members) =>
    '\x7b' :: (lineStart (depth + 1) ++ literal member.1 ++ [':', ' ']
      ++ render (depth + 1) member.2 ++ renderMembers (depth + 1) members ++ lineStart depth
      ++ ['\x7d'])

/-- The text of the items after the first. -/
def renderItems (depth : Nat) : List Json → List Char
  | [] => []
  | item :: items => ',' :: (lineStart depth ++ render depth item ++ renderItems depth items)

/-- The text of the members after the first. -/
def renderMembers (depth : Nat) : List (String × Json) → List Char
  | [] => []
  | (name, value) :: members =>
    ',' :: (lineStart depth ++ literal name ++ [':', ' '] ++ render depth value
      ++ renderMembers depth members)

end

/-- A count is written in decimal digits. -/
theorem render_count (depth n : Nat) : render depth (.count n) = Nat.toDigits 10 n := by
  simp [count, render, toString, Nat.repr]

/-- The text of a value. -/
def pretty (j : Json) : String :=
  String.ofList (render 0 j)

end Ontogram.Json
