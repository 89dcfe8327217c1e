import Ontogram.Markup.Reference.Names

/-!
# Character references

What follows an ampersand: a name of the HTML standard, or a number in decimal or hexadecimal
digits. The longest name that the text starts with wins, and a missing semicolon is tolerated where
the table lists the name without one. Numbers in the range 0x80 to 0x9F are read as Windows-1252,
and numbers that name no character become U+FFFD.

An ampersand that starts no reference stands for itself.
-/

namespace Ontogram.Markup.Reference

/-- A reference that was read. -/
structure Found where
  /-- The characters it stands for. -/
  chars : List Char
  /-- Says whether it ended with a semicolon. -/
  closed : Bool
  /-- The text after it. -/
  rest : List Char

/-- The characters that stand for the numbers 0x80 to 0x9F. Zero keeps the number itself. -/
def windowsTable : List Nat :=
  [0x20AC, 0, 0x201A, 0x192, 0x201E, 0x2026, 0x2020, 0x2021, 0x2C6, 0x2030, 0x160, 0x2039, 0x152, 0,
    0x17D, 0, 0, 0x2018, 0x2019, 0x201C, 0x201D, 0x2022, 0x2013, 0x2014, 0x2DC, 0x2122, 0x161,
    0x203A, 0x153, 0, 0x17E, 0x178]

/-- The replacement character. -/
def replacement : Char := Char.ofNat 0xFFFD

/-- The character that a number stands for. -/
def charOfNumber (n : Nat) : Char :=
  if n = 0 || 0x10FFFF < n || (0xD800 ≤ n && n ≤ 0xDFFF) then replacement
  else if 0x80 ≤ n && n ≤ 0x9F then
    match windowsTable.getD (n - 0x80) 0 with
    | 0 => Char.ofNat n
    | m => Char.ofNat m
  else Char.ofNat n

/-- The value of a digit in a base of at most 16. -/
def digit? (base : Nat) (c : Char) : Option Nat :=
  let n := c.toNat
  let v :=
    if 0x30 ≤ n && n ≤ 0x39 then n - 0x30
    else if 0x41 ≤ n && n ≤ 0x46 then n - 0x41 + 10
    else if 0x61 ≤ n && n ≤ 0x66 then n - 0x61 + 10
    else base
  if v < base then some v else none

/-- Reads digits into a number that started as `value`. -/
def readDigits (base : Nat) : Nat → List Char → Nat × List Char
  | value, [] => (value, [])
  | value, c :: cs =>
    match digit? base c with
    | some d => readDigits base (value * base + d) cs
    | none => (value, c :: cs)

/-- Reads a number and the semicolon after it. -/
def number? (base : Nat) (cs : List Char) : Option Found :=
  match cs with
  | [] => none
  | c :: _ =>
    if (digit? base c).isNone then none
    else
      match readDigits base 0 cs with
      | (n, ';' :: rest) => some ⟨[charOfNumber n], true, rest⟩
      | (n, rest) => some ⟨[charOfNumber n], false, rest⟩

/-- The text after a name, if the text starts with it. -/
def after? : List Char → List Char → Option (List Char)
  | [], cs => some cs
  | _ :: _, [] => none
  | n :: ns, c :: cs => if n = c then after? ns cs else none

/-- The longest of the names that the text starts with. -/
def longest (cs : List Char) : List (String × List Nat) → Option (String × List Nat) →
    Option (String × List Nat)
  | [], best => best
  | e :: es, best =>
    if (after? e.1.toList cs).isSome && (best.all fun b => b.1.length < e.1.length) then
      longest cs es (some e)
    else longest cs es best

/-- ASCII letters and digits. -/
def isAlphanumeric (c : Char) : Bool :=
  c.isAlphanum

/-- Reads a name. In an attribute, a name without semicolon before a letter, a digit or an equals
sign is no reference. -/
def named? (inAttribute : Bool) (cs : List Char) : Option Found :=
  match cs with
  | [] => none
  | c :: _ =>
    match longest cs (namesUnder c) none with
    | none => none
    | some (name, points) =>
      let rest := (after? name.toList cs).getD []
      let closed := name.toList.getLast? == some ';'
      let continues :=
        match rest with
        | [] => false
        | d :: _ => d = '=' || isAlphanumeric d
      if !closed && inAttribute && continues then none
      else some ⟨points.map Char.ofNat, closed, rest⟩

/-- Reads the reference after an ampersand. -/
def read? (inAttribute : Bool) : List Char → Option Found
  | '#' :: 'x' :: cs => number? 16 cs
  | '#' :: 'X' :: cs => number? 16 cs
  | '#' :: cs => number? 10 cs
  | cs => named? inAttribute cs

/-- A text with its references replaced. The fuel is the length of the text. -/
def decodeAll (inAttribute : Bool) : Nat → List Char → List Char
  | 0, cs => cs
  | _ + 1, [] => []
  | fuel + 1, '&' :: cs =>
    match read? inAttribute cs with
    | some found => found.chars ++ decodeAll inAttribute fuel found.rest
    | none => '&' :: decodeAll inAttribute fuel cs
  | fuel + 1, c :: cs => c :: decodeAll inAttribute fuel cs

/-- The value of an attribute, from its text. -/
def attributeValue (cs : List Char) : List Char :=
  decodeAll true cs.length cs

end Ontogram.Markup.Reference
