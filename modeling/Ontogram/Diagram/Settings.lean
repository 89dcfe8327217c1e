import Ontogram.Diagram.OperationKind
import Ontogram.Instance.Basic

/-!
# Settings of a compilation

Which relations are held out of the operation graph and stitched in once the operations of a
component are executed, and which templates `link` and `adopt` take.
-/

namespace Ontogram

/-- The settings of a compilation. -/
structure Settings where
  /-- The relations between components. -/
  secondaryRels : List String
  /-- The template that a link composes in. -/
  linkTemplate : String
  /-- The template that models are adopted from. -/
  adoptTemplate : String
  kinds : RelationKinds
deriving Repr, DecidableEq

namespace Settings

/-- The settings that hold when nothing else is configured. -/
def standard : Settings :=
  ⟨[OperationKind.placeRel], "db_identifier", "motor_ref", .standard⟩

/-- Says whether a relation is held out of the graph. The blanks around its name do not count. -/
def isSecondary (s : Settings) (rel : String) : Bool :=
  s.secondaryRels.contains (Text.trim rel)

/-- Reads settings. What is left out is standard. -/
def ofJson? (j : Json) : Option Settings := do
  let f ← Json.fields?
    ["secondary_rels", "link_template", "adopt_template", "relationship_kinds"] j
  let secondaryRels ← f.withDefault 0 standard.secondaryRels (Json.list? Json.string?)
  let linkTemplate ← f.withDefault 1 standard.linkTemplate Json.string?
  let adoptTemplate ← f.withDefault 2 standard.adoptTemplate Json.string?
  let kinds ← f.withDefault 3 standard.kinds RelationKinds.ofJson?
  pure ⟨secondaryRels, linkTemplate, adoptTemplate, kinds⟩

/-- Writes settings. -/
def toJson (s : Settings) : Json :=
  .object [("secondary_rels", .strings s.secondaryRels), ("link_template", .string s.linkTemplate),
    ("adopt_template", .string s.adoptTemplate), ("relationship_kinds", s.kinds.toJson)]

end Settings

end Ontogram
