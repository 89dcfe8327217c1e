import Ontogram.Diagram.OperationGraph
import Ontogram.Sorting

/-!
# The execution plan

Each weakly connected component has as its root the first element that no edge leads to. Its
operations are the edges found breadth-first from the root, each element's edges in the order in
which they were added; reversed, so that the deepest come first; and then sorted by descending
weight, those of equal weight keeping their order. Edges that are not found are unreached.

A secondary relation belongs to the component of its parent, or to that of its child if the parent
is an isolate.
-/

namespace Ontogram

/-- An operation to execute. -/
structure PlannedOperation where
  relId : String
  kind : OperationKind
  rel : String
  parentId : String
  childId : String
  /-- The raw label of the child, which carries the argument of the operation. -/
  child : String
deriving Repr, DecidableEq

/-- The plan of a component. -/
structure ComponentPlan where
  /-- None if an edge leads to every element. -/
  rootId : Option String
  nodes : List String
  operations : List PlannedOperation
  secondary : List SecondaryRelation
  /-- The edges that the root does not lead to. -/
  unreached : List String
deriving Repr, DecidableEq

/-- The plan of a diagram. -/
structure ExecutionPlan where
  components : List ComponentPlan
  isolates : List String
  /-- The secondary relations that belong to no component. -/
  unplaced : List SecondaryRelation
deriving Repr, DecidableEq

namespace ExecutionPlan

/-- The edges found breadth-first from an element. -/
def edgesFrom (g : ElementGraph) (rootId : String) : List OperationEdge :=
  (Search.reached g.successors g.elements.length rootId).flatMap g.outgoing

/-- The operation of an edge. -/
def operationOf (g : ElementGraph) (e : OperationEdge) : PlannedOperation where
  relId := e.relId
  kind := e.kind
  rel := e.rel
  parentId := e.parentId
  childId := e.childId
  child := ((g.element? e.childId).map Element.content).getD ""

/-- Compares two operations by descending weight. Of equal weight the first one comes first. -/
def byWeight (x y : PlannedOperation) : Ordering :=
  if y.kind.weight ≤ x.kind.weight then .lt else .gt

/-- The operations by descending weight. Those of equal weight keep their order. -/
def sortByWeight (ops : List PlannedOperation) : List PlannedOperation :=
  Sorting.sort byWeight ops

/-- The plan of a component without its secondary relations. -/
def componentPlan (g : ElementGraph) (members : List String) : ComponentPlan :=
  match g.head? members with
  | none => ⟨none, members, [], [], []⟩
  | some rootId =>
    let found := edgesFrom g rootId
    -- The sort is stable, so the deepest of equal weight still come first.
    let operations := sortByWeight (found.reverse.map (operationOf g))
    let unreached := g.edges.filter fun e => members.contains e.parentId && !found.contains e
    ⟨some rootId, members, operations, [], unreached.map OperationEdge.relId⟩

/-- The position of the component that an element is in. -/
def componentIndex? (components : List (List String)) (id : String) : Option Nat :=
  components.findIdx? fun members => members.contains id

/-- The position of the component that a secondary relation belongs to. -/
def owner? (components : List (List String)) (isolates : List String) (r : SecondaryRelation) :
    Option Nat :=
  match componentIndex? components r.parentId with
  | some i => some i
  | none => if isolates.contains r.parentId then componentIndex? components r.childId else none

/-- The plan of an operation graph. -/
def ofGraph (o : OperationGraph) : ExecutionPlan :=
  let g := o.graph.without o.isolates
  let groups := g.components
  let owner := owner? groups o.isolates
  let components := groups.zipIdx.map fun (members, i) =>
    { componentPlan g members with secondary := o.secondary.filter fun r => owner r = some i }
  ⟨components, o.isolates, o.secondary.filter fun r => owner r = none⟩

/-- The plan of a diagram. -/
def ofDrawing (drawing : Drawing) (settings : Settings) (ids : IdSource) : ExecutionPlan :=
  ofGraph (OperationGraph.build drawing settings ids).1

/-! ## JSON -/

/-- Writes a planned operation. -/
def operationToJson (op : PlannedOperation) : Json :=
  .object [("rel_id", .string op.relId), ("kind", .string op.kind.name), ("rel", .string op.rel),
    ("parent_id", .string op.parentId), ("child_id", .string op.childId),
    ("child", .string op.child)]

/-- Writes a secondary relation. -/
def secondaryToJson (r : SecondaryRelation) : Json :=
  .object [("rel_id", .string r.relId), ("parent_id", .string r.parentId),
    ("child_id", .string r.childId), ("rel", .string r.rel)]

/-- Writes the plan of a component. -/
def componentToJson (c : ComponentPlan) : Json :=
  .object [("root_id", .optional c.rootId), ("nodes", .strings c.nodes),
    ("operations", .array (c.operations.map operationToJson)),
    ("secondary", .array (c.secondary.map secondaryToJson)), ("unreached", .strings c.unreached)]

/-- Writes a plan. -/
def toJson (p : ExecutionPlan) : Json :=
  .object [("components", .array (p.components.map componentToJson)),
    ("isolates", .strings p.isolates), ("unplaced", .array (p.unplaced.map secondaryToJson))]

end ExecutionPlan

end Ontogram
