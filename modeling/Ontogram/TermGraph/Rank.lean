import Ontogram.DisjointSets
import Ontogram.TermGraph.Arena

/-!
# Rank hierarchies and term types

The rank links of an arena fall into weakly connected hierarchies. The root of a hierarchy is its
first term, in the order in which the rank links mention terms, that no rank link reaches; it is the
term type of every term of the hierarchy. A hierarchy without root is an error.

Which of several hierarchies is looked at first is fixed by their representatives: they are taken by
ascending slot.
-/

namespace Ontogram.Arena

/-- The rank links in slot order. -/
def rankLinks (g : Arena) : List Link :=
  g.links.toList.filter fun k => k.relation.isRank

/-- The list without the items that occur earlier in it. -/
def firstMentions : List Nat → List Nat → List Nat
  | _, [] => []
  | seen, x :: xs =>
    if seen.contains x then firstMentions seen xs else x :: firstMentions (x :: seen) xs

/-- The slots of the rank links in the order of their first mention. -/
def rankSlots (g : Arena) : List Nat :=
  firstMentions [] (g.rankLinks.flatMap fun k => [k.source, k.target])

/-- The sets of slots that the rank links connect. -/
def rankSets (g : Arena) : DisjointSets Nat :=
  .ofPairs (g.rankLinks.map fun k => (k.source, k.target))

/-- The hierarchies, each as its slots in the order of their first mention. -/
def hierarchies (g : Arena) : List (List Nat) :=
  (Sorting.sort Slots.bySlot (g.rankSets.groups g.rankSlots)).map Prod.snd

/-- The first slot of a hierarchy that no rank link reaches. -/
def hierarchyRoot? (g : Arena) (members : List Nat) : Option Nat :=
  members.find? fun slot => !g.rankLinks.any fun k => k.target == slot

/-- Makes `root` the type of the members of a hierarchy. -/
def setTypes (g : Arena) (members : List Nat) (root : String) : Arena :=
  { g with terms := g.terms.map fun slot t =>
      if members.contains slot then { t with termType := some root } else t }

/-- Gives a hierarchy its term type. The error names its members if it has no root. -/
def typeHierarchy (g typed : Arena) (members : List Nat) : Except (List String) Arena :=
  match g.hierarchyRoot? members with
  | some root => .ok (typed.setTypes members (g.labelAt root))
  | none => .error (members.map g.labelAt)

/-- Gives every hierarchy its term type. The error names the members of one without root. -/
def deriveTypes (g : Arena) : Except (List String) Arena :=
  g.hierarchies.foldlM g.typeHierarchy g

/-- The arena of a table, with its term types. The error names the members of a hierarchy without
root. -/
def ofRows (rows : List Row) : Except (List String) Arena :=
  ((rows.map Row.toArc).foldl relate empty).deriveTypes

end Ontogram.Arena
