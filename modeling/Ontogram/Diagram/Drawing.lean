import Ontogram.Json.Record

/-!
# Drawings

What a diagram reader hands over: drawn relations between elements, the labels that are related to
designated elements, and the containers that elements are drawn inside of. Labels are raw.
-/

namespace Ontogram

/-- A drawn relation between two elements. -/
structure DrawnRelation where
  parentId : String
  parent : String
  childId : String
  child : String
  rel : String
  relId : String
deriving Repr, DecidableEq

/-- A label that is related to a designated element. -/
structure RelatedLabel where
  id : String
  label : String
deriving Repr, DecidableEq

/-- A designated element and the labels related to it. -/
structure Designation where
  nodeId : String
  label : String
  related : List RelatedLabel
deriving Repr, DecidableEq

/-- The containers that an element is drawn inside of. -/
structure AreaMembership where
  nodeId : String
  areaIds : List String
deriving Repr, DecidableEq

/-- A diagram as it was drawn. -/
structure Drawing where
  relations : List DrawnRelation
  designations : List Designation
  areas : List AreaMembership
deriving Repr, DecidableEq

namespace Drawing

/-- The drawing without elements. -/
def empty : Drawing :=
  ⟨[], [], []⟩

/-! ## Drawing in code -/

/-- Adds a relation. Its id is `r` and its position, counted from one. -/
def relate (d : Drawing) (parentId parent rel childId child : String) : Drawing :=
  let relId := "r" ++ toString (d.relations.length + 1)
  { d with relations := d.relations ++ [⟨parentId, parent, childId, child, rel, relId⟩] }

/-- Adds a designated element. -/
def designate (d : Drawing) (nodeId label : String) (related : List RelatedLabel) : Drawing :=
  { d with designations := d.designations ++ [⟨nodeId, label, related⟩] }

/-- Adds the containers of an element. -/
def inside (d : Drawing) (nodeId : String) (areaIds : List String) : Drawing :=
  { d with areas := d.areas ++ [⟨nodeId, areaIds⟩] }

end Drawing

/-! ## JSON -/

/-- Reads a drawn relation. -/
def DrawnRelation.ofJson? (j : Json) : Option DrawnRelation := do
  let f ← Json.fields? ["parent_id", "parent", "child_id", "child", "rel", "rel_id"] j
  let parentId ← f.required 0 Json.string?
  let parent ← f.required 1 Json.string?
  let childId ← f.required 2 Json.string?
  let child ← f.required 3 Json.string?
  let rel ← f.required 4 Json.string?
  let relId ← f.required 5 Json.string?
  pure ⟨parentId, parent, childId, child, rel, relId⟩

/-- Reads a related label. -/
def RelatedLabel.ofJson? (j : Json) : Option RelatedLabel := do
  let f ← Json.fields? ["id", "label"] j
  let id ← f.required 0 Json.string?
  let label ← f.required 1 Json.string?
  pure ⟨id, label⟩

/-- Reads a designation. -/
def Designation.ofJson? (j : Json) : Option Designation := do
  let f ← Json.fields? ["node_id", "label", "related"] j
  let nodeId ← f.required 0 Json.string?
  let label ← f.required 1 Json.string?
  let related ← f.withDefault 2 [] (Json.list? RelatedLabel.ofJson?)
  pure ⟨nodeId, label, related⟩

/-- Reads an area membership. -/
def AreaMembership.ofJson? (j : Json) : Option AreaMembership := do
  let f ← Json.fields? ["node_id", "area_ids"] j
  let nodeId ← f.required 0 Json.string?
  let areaIds ← f.required 1 (Json.list? Json.string?)
  pure ⟨nodeId, areaIds⟩

/-- Reads a drawing. -/
def Drawing.ofJson? (j : Json) : Option Drawing := do
  let f ← Json.fields? ["relationships", "designations", "areas"] j
  let relations ← f.required 0 (Json.list? DrawnRelation.ofJson?)
  let designations ← f.withDefault 1 [] (Json.list? Designation.ofJson?)
  let areas ← f.withDefault 2 [] (Json.list? AreaMembership.ofJson?)
  pure ⟨relations, designations, areas⟩

/-- Writes a drawn relation. -/
def DrawnRelation.toJson (r : DrawnRelation) : Json :=
  .object [("parent_id", .string r.parentId), ("parent", .string r.parent),
    ("child_id", .string r.childId), ("child", .string r.child), ("rel", .string r.rel),
    ("rel_id", .string r.relId)]

/-- Writes a related label. -/
def RelatedLabel.toJson (r : RelatedLabel) : Json :=
  .object [("id", .string r.id), ("label", .string r.label)]

/-- Writes a designation. -/
def Designation.toJson (d : Designation) : Json :=
  .object [("node_id", .string d.nodeId), ("label", .string d.label),
    ("related", .array (d.related.map RelatedLabel.toJson))]

/-- Writes an area membership. -/
def AreaMembership.toJson (m : AreaMembership) : Json :=
  .object [("node_id", .string m.nodeId), ("area_ids", .strings m.areaIds)]

/-- Writes a drawing. -/
def Drawing.toJson (d : Drawing) : Json :=
  .object [("relationships", .array (d.relations.map DrawnRelation.toJson)),
    ("designations", .array (d.designations.map Designation.toJson)),
    ("areas", .array (d.areas.map AreaMembership.toJson))]

end Ontogram
