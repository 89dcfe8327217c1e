import Ontogram.Search
import Ontogram.TermGraph.Arena

/-!
# Walks through a term graph

Breadth-first walks along the arcs, each term's arcs in slot order: everything below a term, the
rank terms above it, and a shortest path between two terms.
-/

namespace Ontogram.Arena

/-- The terms that arcs lead to from a term, in slot order. -/
def children (g : Arena) (label : String) : List String :=
  (g.arcList.filter fun a => a.parent == label).map Arc.child

/-- The terms from which rank arcs lead to a term, in slot order. -/
def rankParents (g : Arena) (label : String) : List String :=
  (g.arcList.filter fun a => a.child == label && a.relation.isRank).map Arc.parent

/-- Every term that is reached from a term, nearest first, the term itself excluded. -/
def descendants (g : Arena) (label : String) : List String :=
  if g.contains label then (Search.reached g.children g.size label).drop 1 else []

/-- Every term from which rank arcs lead to a term, nearest first, the term itself excluded. -/
def rankAncestors (g : Arena) (label : String) : List String :=
  if g.contains label then (Search.reached g.rankParents g.size label).drop 1 else []

/-- A shortest path between two terms, both included. Of two arcs the one of the lower slot is
tried first. -/
def shortestPath? (g : Arena) (source target : String) : Option (List String) :=
  if g.contains source && g.contains target then
    Search.trail? g.children g.size source target
  else none

end Ontogram.Arena
