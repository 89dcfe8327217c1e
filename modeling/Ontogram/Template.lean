import Ontogram.Json.Record
import Ontogram.Text.Quoted

/-!
# Templates

A template is a relationship table, and a library of templates gives tables by name. A table comes
as rows and goes out as rows; so does a compiled ontology.
-/

namespace Ontogram

/-- One row of a relationship table. -/
structure Row where
  parent : String
  child : String
  rel : String
  isRank : Bool
deriving Repr, DecidableEq

namespace Row

/-- Reads a row. A row without `is_rank` is no rank row. -/
def ofJson? (j : Json) : Option Row := do
  let f ← Json.fields? ["parent", "child", "rel", "is_rank"] j
  let parent ← f.required 0 Json.string?
  let child ← f.required 1 Json.string?
  let rel ← f.required 2 Json.string?
  let isRank ← f.withDefault 3 false Json.bool?
  pure ⟨parent, child, rel, isRank⟩

/-- Writes a row. -/
def toJson (r : Row) : Json :=
  .object [("parent", .string r.parent), ("child", .string r.child), ("rel", .string r.rel),
    ("is_rank", .bool r.isRank)]

/-- Reads a table. -/
def tableOfJson? (j : Json) : Option (List Row) :=
  Json.list? ofJson? j

/-- Writes a table. -/
def tableToJson (rows : List Row) : Json :=
  .array (rows.map toJson)

end Row

/-- Why a template cannot be used. -/
inductive TemplateError where
  /-- The library has no template of that name. -/
  | notFound (name : String)
  /-- The table has no rows. -/
  | noRelationships (name : String)
  /-- The text of the template is no table. -/
  | noTable (name : String)
  /-- The text of the template cannot be read. -/
  | unreadable (name : String)
  /-- Some rank terms are below each other in a circle, with none above them all. -/
  | cyclicRanks (members : List String)
deriving Repr, DecidableEq

/-- The text of a template error. -/
def TemplateError.message : TemplateError → String
  | .notFound name => s!"template `{name}` not found"
  | .noRelationships name => s!"template `{name}` is malformed: template has no relationships"
  | .noTable name => s!"template `{name}` is malformed: not a relationship table"
  | .unreadable name => s!"failed to read template `{name}`"
  | .cyclicRanks members => s!"rank hierarchy has no root among {Text.quotedList members}"

/-- A source of tables by name. -/
structure Library where
  rows : String → Except TemplateError (List Row)

namespace Library

/-- The library of the tables in a list. -/
def ofList (templates : List (String × List Row)) : Library where
  rows name :=
    match templates.find? fun t => t.1 == name with
    | some t => .ok t.2
    | none => .error (.notFound name)

/-- The library without templates. -/
def empty : Library :=
  ofList []

end Library

end Ontogram
