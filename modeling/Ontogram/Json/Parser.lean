import Ontogram.Json.Basic

/-!
# Reading JSON

The strict grammar of JSON: blanks are space, tab, line feed and carriage return; no byte order
mark, comments, trailing commas or text after the value; no raw control characters in strings.

Every function takes the text as a list of characters and gives the rest. `value?` takes the length
of the text as its fuel, since each value and each comma takes at least one character.
-/

namespace Ontogram.Json

/-- The blanks between tokens. -/
def isGap (c : Char) : Bool :=
  c = ' ' || c = '\t' || c = '\n' || c = '\r'

/-- A text without the blanks at its start. -/
def skipGap (cs : List Char) : List Char :=
  cs.dropWhile isGap

/-- The value of a hexadecimal digit. -/
def hexDigit? (c : Char) : Option Nat :=
  let n := c.toNat
  if 0x30 ≤ n && n ≤ 0x39 then some (n - 0x30)
  else if 0x41 ≤ n && n ≤ 0x46 then some (n - 0x41 + 10)
  else if 0x61 ≤ n && n ≤ 0x66 then some (n - 0x61 + 10)
  else none

/-- Four hexadecimal digits. -/
def fourDigits? : List Char → Option (Nat × List Char)
  | a :: b :: c :: d :: rest => do
    let a ← hexDigit? a
    let b ← hexDigit? b
    let c ← hexDigit? c
    let d ← hexDigit? d
    pure (((a * 16 + b) * 16 + c) * 16 + d, rest)
  | _ => none

/-- The character of a one-letter escape. -/
def simpleEscape? : Char → Option Char
  | '"' => some '"'
  | '\\' => some '\\'
  | '/' => some '/'
  | 'b' => some '\x08'
  | 'f' => some '\x0c'
  | 'n' => some '\n'
  | 'r' => some '\r'
  | 't' => some '\t'
  | _ => none

/-- The code units and characters of a string literal after its opening quote. A unit of a `\u`
escape is on the left. -/
inductive StringItem where
  | unit (n : Nat)
  | char (c : Char)

/-- Reads the items of a string literal up to its closing quote. The fuel is the length of the
text. -/
def stringItems? : Nat → List Char → Option (List StringItem × List Char)
  | 0, _ => none
  | _ + 1, [] => none
  | _ + 1, '"' :: rest => some ([], rest)
  | fuel + 1, '\\' :: 'u' :: rest => do
    let (n, rest) ← fourDigits? rest
    let (items, rest) ← stringItems? fuel rest
    pure (.unit n :: items, rest)
  | fuel + 1, '\\' :: c :: rest => do
    let c ← simpleEscape? c
    let (items, rest) ← stringItems? fuel rest
    pure (.char c :: items, rest)
  | fuel + 1, c :: rest =>
    if c = '\\' || c.toNat < 0x20 then none
    else do
      let (items, rest) ← stringItems? fuel rest
      pure (.char c :: items, rest)

/-- The text of the items of a string literal. None if half a surrogate pair stands alone. -/
def textOfItems? : List StringItem → Option (List Char)
  | [] => some []
  | .char c :: items => (textOfItems? items).map (c :: ·)
  | .unit n :: items =>
    if 0xD800 ≤ n && n ≤ 0xDBFF then
      match items with
      | .unit m :: items =>
        if 0xDC00 ≤ m && m ≤ 0xDFFF then
          (textOfItems? items).map
            (Char.ofNat (0x10000 + (n - 0xD800) * 0x400 + (m - 0xDC00)) :: ·)
        else none
      | _ => none
    else if 0xDC00 ≤ n && n ≤ 0xDFFF then none
    else (textOfItems? items).map (Char.ofNat n :: ·)

/-- A string literal after its opening quote. -/
def stringLiteral? (cs : List Char) : Option (Json × List Char) := do
  let (items, rest) ← stringItems? (cs.length + 1) cs
  match textOfItems? items with
  | some text => pure (.string (String.ofList text), rest)
  | none => pure (.unreadable, rest)

/-- Decimal digits, at least one. -/
def digits? (cs : List Char) : Option (List Char × List Char) :=
  match cs.takeWhile Char.isDigit with
  | [] => none
  | ds => some (ds, cs.dropWhile Char.isDigit)

/-- The part of a number before its point. A leading zero stands alone. -/
def wholePart? (cs : List Char) : Option (List Char × List Char) :=
  match cs with
  | '0' :: rest => if rest.head?.any Char.isDigit then none else some (['0'], rest)
  | _ => digits? cs

/-- The part of a number after its point, the point included, if it has one. -/
def fraction? (cs : List Char) : Option (List Char × List Char) :=
  match cs with
  | '.' :: rest => (digits? rest).map fun (ds, rest) => ('.' :: ds, rest)
  | _ => some ([], cs)

/-- The exponent of a number, if it has one. -/
def exponent? (cs : List Char) : Option (List Char × List Char) :=
  match cs with
  | e :: rest =>
    if e = 'e' || e = 'E' then
      match rest with
      | '+' :: rest => (digits? rest).map fun (ds, rest) => (e :: '+' :: ds, rest)
      | '-' :: rest => (digits? rest).map fun (ds, rest) => (e :: '-' :: ds, rest)
      | _ => (digits? rest).map fun (ds, rest) => (e :: ds, rest)
    else some ([], cs)
  | [] => some ([], [])

/-- A number. -/
def number? (cs : List Char) : Option (Json × List Char) := do
  let (sign, cs) : List Char × List Char :=
    match cs with
    | '-' :: rest => (['-'], rest)
    | _ => ([], cs)
  let (whole, cs) ← wholePart? cs
  let (fraction, cs) ← fraction? cs
  let (exponent, cs) ← exponent? cs
  pure (.number (String.ofList (sign ++ whole ++ fraction ++ exponent)), cs)

/-- The text after a word, if the text starts with it. -/
def afterWord? : List Char → List Char → Option (List Char)
  | [], cs => some cs
  | _ :: _, [] => none
  | w :: ws, c :: cs => if w = c then afterWord? ws cs else none

/-- The members of an object, if all their names stand for texts. -/
def namedMembers? : List (Json × Json) → Option (List (String × Json))
  | [] => some []
  | (.string name, value) :: members => (namedMembers? members).map ((name, value) :: ·)
  | _ => none

/-- The object of some members, each with its name as a string literal. -/
def objectOf (members : List (Json × Json)) : Json :=
  match namedMembers? members with
  | some members => .object members
  | none => .unreadable

mutual

/-- A value at the start of a text without leading blanks. -/
def value? : Nat → List Char → Option (Json × List Char)
  | 0, _ => none
  | _ + 1, [] => none
  | fuel + 1, c :: cs =>
    if c = '"' then stringLiteral? cs
    else if c = '[' then
      match skipGap cs with
      | ']' :: rest => some (.array [], rest)
      | cs => do
        let (items, rest) ← items? fuel cs
        pure (.array items, rest)
    else if c = '\x7b' then
      match skipGap cs with
      | '\x7d' :: rest => some (.object [], rest)
      | cs => do
        let (members, rest) ← members? fuel cs
        pure (objectOf members, rest)
    else if c = 'n' then (afterWord? "ull".toList cs).map fun rest => (.null, rest)
    else if c = 't' then (afterWord? "rue".toList cs).map fun rest => (.bool true, rest)
    else if c = 'f' then (afterWord? "alse".toList cs).map fun rest => (.bool false, rest)
    else number? (c :: cs)

/-- The items of an array from the first one through the closing bracket. -/
def items? : Nat → List Char → Option (List Json × List Char)
  | 0, _ => none
  | fuel + 1, cs => do
    let (item, rest) ← value? fuel (skipGap cs)
    match skipGap rest with
    | ']' :: rest => pure ([item], rest)
    | ',' :: rest =>
      let (items, rest) ← items? fuel rest
      pure (item :: items, rest)
    | _ => none

/-- The members of an object from the first one through the closing brace. -/
def members? : Nat → List Char → Option (List (Json × Json) × List Char)
  | 0, _ => none
  | fuel + 1, cs =>
    match skipGap cs with
    | '"' :: cs => do
      let (name, rest) ← stringLiteral? cs
      match skipGap rest with
      | ':' :: rest =>
        let (value, rest) ← value? fuel (skipGap rest)
        match skipGap rest with
        | '\x7d' :: rest => pure ([(name, value)], rest)
        | ',' :: rest =>
          let (members, rest) ← members? fuel rest
          pure ((name, value) :: members, rest)
        | _ => none
      | _ => none
    | _ => none

end

/-- The value that a text is, with nothing but blanks around it. -/
def parse? (text : String) : Option Json := do
  let cs := skipGap text.toList
  let (value, rest) ← value? (2 * cs.length + 2) cs
  if (skipGap rest).isEmpty then pure value else none

end Ontogram.Json
