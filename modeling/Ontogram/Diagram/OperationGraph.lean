import Ontogram.Diagram.Drawing
import Ontogram.Diagram.Settings
import Ontogram.DisjointSets
import Ontogram.Label.Marker
import Ontogram.Search

/-!
# The operation graph of a diagram

The elements of a diagram in the order of their first mention, and an edge for each pair of elements
that an operation joins, in the order in which the pairs were joined first. A later operation on the
same pair takes the place of the earlier one.

Drawn relations come first, then the connections between containers. What is an isolate, a container
and a component root is decided on the graph so far. Last, every component root is bound from the
innermost containers that it is drawn inside of.

Secondary relations only contribute their elements and are kept aside.
-/

namespace Ontogram

/-- An element of a diagram and its raw label. -/
structure Element where
  id : String
  content : String
deriving Repr, DecidableEq

/-- An operation between two elements. -/
structure OperationEdge where
  parentId : String
  childId : String
  rel : String
  relId : String
  kind : OperationKind
  /-- Says whether the edge comes from a designation of containers. -/
  isAreaConnection : Bool
deriving Repr, DecidableEq

/-- The pair that an edge joins. -/
def OperationEdge.ends (e : OperationEdge) : String × String :=
  (e.parentId, e.childId)

/-- Says whether an edge joins a pair. -/
def OperationEdge.joins (e : OperationEdge) (parentId childId : String) : Bool :=
  e.parentId == parentId && e.childId == childId

/-- A relation that is kept aside until the operations of its component are executed. -/
structure SecondaryRelation where
  relId : String
  parentId : String
  childId : String
  rel : String
deriving Repr, DecidableEq

/-- Hands out ids of edges that were not drawn: a header, a dash and a number. -/
structure IdSource where
  header : String
  used : Nat
deriving Repr, DecidableEq

namespace IdSource

/-- The source of the ids under a header. -/
def ofHeader (header : String) : IdSource :=
  ⟨header, 0⟩

/-- The next id. -/
def nextId (s : IdSource) : String :=
  s.header ++ "-" ++ toString (s.used + 1)

/-- The source after the next id. -/
def advance (s : IdSource) : IdSource :=
  { s with used := s.used + 1 }

end IdSource

/-- Elements and the operations between them. -/
structure ElementGraph where
  elements : List Element
  edges : List OperationEdge
deriving Repr, DecidableEq

namespace ElementGraph

/-- The graph without elements. -/
def empty : ElementGraph :=
  ⟨[], []⟩

/-- The ids of the elements. -/
def ids (g : ElementGraph) : List String :=
  g.elements.map Element.id

/-- Looks an element up. -/
def element? (g : ElementGraph) (id : String) : Option Element :=
  g.elements.find? fun e => e.id == id

/-- Says whether an id is that of an element. -/
def contains (g : ElementGraph) (id : String) : Bool :=
  (g.element? id).isSome

/-- Adds an element unless there is one of its id. -/
def ensure (g : ElementGraph) (id content : String) : ElementGraph :=
  if g.contains id then g else { g with elements := g.elements ++ [⟨id, content⟩] }

/-- Says whether a pair is joined. -/
def containsEdge (g : ElementGraph) (parentId childId : String) : Bool :=
  g.edges.any fun e => e.joins parentId childId

/-- Adds an edge, or puts it in the place of the one of its pair. -/
def putEdge (g : ElementGraph) (e : OperationEdge) : ElementGraph :=
  if g.containsEdge e.parentId e.childId then
    { g with edges := g.edges.map fun f => if f.joins e.parentId e.childId then e else f }
  else { g with edges := g.edges ++ [e] }

/-- The edges that leave an element. -/
def outgoing (g : ElementGraph) (id : String) : List OperationEdge :=
  g.edges.filter fun e => e.parentId == id

/-- The elements that edges lead to from an element. -/
def successors (g : ElementGraph) (id : String) : List String :=
  (g.outgoing id).map OperationEdge.childId

/-- The elements at the other end of the edges of an element. -/
def neighbours (g : ElementGraph) (id : String) : List String :=
  g.edges.filterMap fun e =>
    if e.parentId = id then some e.childId else if e.childId = id then some e.parentId else none

/-- Says whether an edge leads to an element. -/
def hasIncoming (g : ElementGraph) (id : String) : Bool :=
  g.edges.any fun e => e.childId == id

/-- The weakly connected components, each in the order of the elements, ordered by their first
element. -/
def components (g : ElementGraph) : List (List String) :=
  ((DisjointSets.ofPairs (g.edges.map OperationEdge.ends)).groups g.ids).map Prod.snd

/-- The first of some elements that no edge leads to. -/
def head? (g : ElementGraph) (members : List String) : Option String :=
  members.find? fun id => !g.hasIncoming id

/-- The graph without some elements and the edges that join them. -/
def without (g : ElementGraph) (ids : List String) : ElementGraph where
  elements := g.elements.filter fun e => !ids.contains e.id
  edges := g.edges.filter fun e => !ids.contains e.parentId && !ids.contains e.childId

end ElementGraph

/-- The operation graph of a diagram. -/
structure OperationGraph where
  graph : ElementGraph
  secondary : List SecondaryRelation
  /-- The elements without edges that are no containers. -/
  isolates : List String
  /-- The elements of the connections between containers. -/
  areaElements : List String
  /-- The heads of the components of drawn relations and containers. -/
  componentRoots : List String
deriving Repr, DecidableEq

namespace OperationGraph

/-- The edge of a drawn relation. -/
def drawnEdge (r : DrawnRelation) : OperationEdge :=
  ⟨r.parentId, r.childId, Text.trim r.rel, r.relId, .ofRel r.rel, false⟩

/-- A bind that was not drawn. -/
def bindEdge (parentId childId relId : String) (isAreaConnection : Bool) : OperationEdge :=
  ⟨parentId, childId, OperationKind.bindRel, relId, .bind, isAreaConnection⟩

/-- Adds the elements of a drawn relation, and its edge unless it is secondary. -/
def addDrawn (settings : Settings) (g : ElementGraph) (r : DrawnRelation) : ElementGraph :=
  let g := (g.ensure r.parentId r.parent).ensure r.childId r.child
  if settings.isSecondary r.rel then g else g.putEdge (drawnEdge r)

/-- The secondary relations among the drawn ones. -/
def secondaryOf (settings : Settings) (relations : List DrawnRelation) : List SecondaryRelation :=
  (relations.filter fun r => settings.isSecondary r.rel).map fun r =>
    ⟨r.relId, r.parentId, r.childId, Text.trim r.rel⟩

/-- Adds the container of a related label and its connection. Other labels add nothing. -/
def addRelated (nodeId : String) (s : ElementGraph × IdSource) (r : RelatedLabel) :
    ElementGraph × IdSource :=
  if Label.isContainer r.label then
    let (g, ids) := s
    ((g.ensure r.id r.label).putEdge (bindEdge nodeId r.id ids.nextId true), ids.advance)
  else s

/-- Adds a designated element and the containers that are related to it. -/
def addDesignation (s : ElementGraph × IdSource) (d : Designation) : ElementGraph × IdSource :=
  d.related.foldl (addRelated d.nodeId) (s.1.ensure d.nodeId d.label, s.2)

/-- The elements without edges that are no containers. -/
def isolatesOf (g : ElementGraph) : List String :=
  (g.elements.filter fun e => (g.neighbours e.id).isEmpty && !Label.isContainer e.content).map
    Element.id

/-- The elements of the connections between containers. -/
def areaElementsOf (g : ElementGraph) : List String :=
  (g.edges.filter OperationEdge.isAreaConnection).flatMap fun e => [e.parentId, e.childId]

/-- The heads of the components that are no isolates. -/
def componentRootsOf (g : ElementGraph) : List String :=
  (g.components.filterMap g.head?).filter fun id => !(isolatesOf g).contains id

/-- Says whether a connection leads from a container to another. -/
def hasNestedAreas (g : ElementGraph) (id : String) : Bool :=
  (g.outgoing id).any OperationEdge.isAreaConnection

/-- Binds a component root from a container, unless the container is unknown or holds another. -/
def bindFromArea (rootId : String) (s : ElementGraph × IdSource) (areaId : String) :
    ElementGraph × IdSource :=
  let (g, ids) := s
  if g.contains areaId && !hasNestedAreas g areaId then
    (g.putEdge (bindEdge areaId rootId ids.nextId false), ids.advance)
  else s

/-- Binds a component root from the innermost containers that it is drawn inside of. -/
def bindInnermost (roots : List String) (s : ElementGraph × IdSource) (m : AreaMembership) :
    ElementGraph × IdSource :=
  if roots.contains m.nodeId && s.1.contains m.nodeId then
    m.areaIds.foldl (bindFromArea m.nodeId) s
  else s

/-- The graph of the drawn relations and the connections between containers. -/
def connected (drawing : Drawing) (settings : Settings) (ids : IdSource) :
    ElementGraph × IdSource :=
  drawing.designations.foldl addDesignation
    (drawing.relations.foldl (addDrawn settings) .empty, ids)

/-- Builds the operation graph of a diagram. The source of ids comes back advanced. -/
def build (drawing : Drawing) (settings : Settings) (ids : IdSource) :
    OperationGraph × IdSource :=
  let (g, ids) := connected drawing settings ids
  -- Roots and isolates are those of the graph before the binds from containers.
  let roots := componentRootsOf g
  let (bound, ids) := drawing.areas.foldl (bindInnermost roots) (g, ids)
  ({ graph := bound
     secondary := secondaryOf settings drawing.relations
     isolates := isolatesOf g
     areaElements := areaElementsOf g
     componentRoots := roots }, ids)

/-- Says whether an element is a component root outside of any hierarchy of containers. The free
variables of what is bound into it are scoped. -/
def isComponent (o : OperationGraph) (id : String) : Bool :=
  o.componentRoots.contains id && !o.areaElements.contains id

end OperationGraph

end Ontogram
