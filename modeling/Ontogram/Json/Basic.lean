/-!
# JSON values

JSON texts as values. An object keeps its members in the order of the text, repeated ones included,
because a repeated member can be an error for its reader. Numbers keep their text: the only numbers
that anything here reads are counts.
-/

namespace Ontogram

/-- A JSON value. -/
inductive Json where
  | null
  | bool (b : Bool)
  /-- A number, by its text. -/
  | number (text : String)
  | string (s : String)
  /-- A string literal with half a surrogate pair in it, which stands for no text, or an object with
  a name of that kind. No reader takes it, but it may stand where nothing is read. -/
  | unreadable
  | array (items : List Json)
  | object (members : List (String × Json))

namespace Json

/-- A count as a JSON number. -/
def count (n : Nat) : Json :=
  .number (toString n)

/-- A list of strings. -/
def strings (ss : List String) : Json :=
  .array (ss.map .string)

/-- A string that may be missing. -/
def optional : Option String → Json
  | some s => .string s
  | none => .null

end Json

end Ontogram
