import Ontogram.Json.Basic

/-!
# Reading records from JSON

A record is written as an object with its fields by name or as an array with its fields in order. An
object may have members that are no fields, but no field twice; an array may leave out fields at its
end, but has none too many. A field that is not there takes its default if it has one.

Nothing is converted: `1` is no boolean, `1.0` and `-1` are no count, and `null` stands only for a
value that may be missing.
-/

namespace Ontogram.Json

/-- The fields of a record in order. -/
structure Fields where
  values : List (Option Json)
  /-- Says whether the fields were written as an array. -/
  positional : Bool

/-- The values of the members of a name. -/
def membersNamed (name : String) (members : List (String × Json)) : List Json :=
  members.filterMap fun m => if m.1 = name then some m.2 else none

/-- The fields of the given names. -/
def fields? (names : List String) : Json → Option Fields
  | .object members =>
    if names.any fun name => 1 < (membersNamed name members).length then none
    else some ⟨names.map fun name => (membersNamed name members).head?, false⟩
  | .array items =>
    if names.length < items.length then none
    else some ⟨(List.range names.length).map fun i => items[i]?, true⟩
  | _ => none

namespace Fields

/-- A field by its position in the order. -/
def get? (f : Fields) (i : Nat) : Option Json :=
  (f.values[i]?).join

/-- A field that must be there. -/
def required {α : Type} (f : Fields) (i : Nat) (read : Json → Option α) : Option α :=
  (f.get? i).bind read

/-- A field that has a default. -/
def withDefault {α : Type} (f : Fields) (i : Nat) (default : α) (read : Json → Option α) :
    Option α :=
  match f.get? i with
  | some j => read j
  | none => some default

/-- A field that may be left out of an object, but not out of an array. -/
def omissible {α : Type} (f : Fields) (i : Nat) (absent : α) (read : Json → Option α) : Option α :=
  if f.positional then f.required i read else f.withDefault i absent read

end Fields

/-- A string. -/
def string? : Json → Option String
  | .string s => some s
  | _ => none

/-- A boolean. -/
def bool? : Json → Option Bool
  | .bool b => some b
  | _ => none

/-- A count of at most 64 bits. -/
def count? : Json → Option Nat
  | .number text =>
    if text.toList.all Char.isDigit then
      let n := text.toList.foldl (fun n c => n * 10 + (c.toNat - 0x30)) 0
      if n ≤ 0xFFFFFFFFFFFFFFFF then some n else none
    else none
  | _ => none

/-- A value that may be missing. -/
def optional? {α : Type} (read : Json → Option α) : Json → Option (Option α)
  | .null => some none
  | j => (read j).map some

/-- Reads every item or none. -/
def readAll {α : Type} (read : Json → Option α) : List Json → Option (List α)
  | [] => some []
  | j :: js =>
    match read j, readAll read js with
    | some a, some as => some (a :: as)
    | _, _ => none

/-- A list. -/
def list? {α : Type} (read : Json → Option α) : Json → Option (List α)
  | .array items => readAll read items
  | _ => none

end Ontogram.Json
