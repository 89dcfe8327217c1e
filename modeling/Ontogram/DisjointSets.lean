/-!
# Disjoint sets

Items fall into sets, each with one of its items as its representative. At first every item is
alone. A union of two sets keeps the representative of the higher one, and of equally high sets that
of the first, which then gets higher by one.
-/

namespace Ontogram

/-- Disjoint sets of items. -/
structure DisjointSets (α : Type) where
  /-- The representatives that were taken over, each with the one that took it over, in order. -/
  taken : List (α × α)
  /-- The representatives that got higher by one, each as often as it did. -/
  grown : List α
deriving Repr, DecidableEq

namespace DisjointSets

/-- Every item alone. -/
def alone {α : Type} : DisjointSets α :=
  ⟨[], []⟩

variable {α : Type} [DecidableEq α]

/-- The representative of the set that an item is in. -/
def find (s : DisjointSets α) (x : α) : α :=
  s.taken.foldl (fun r m => if r = m.1 then m.2 else r) x

/-- The height of the set of a representative. -/
def height (s : DisjointSets α) (r : α) : Nat :=
  s.grown.count r

/-- Makes one set of the sets of two items. -/
def union (s : DisjointSets α) (x y : α) : DisjointSets α :=
  let a := s.find x
  let b := s.find y
  if a = b then s
  else if s.height a < s.height b then { s with taken := s.taken ++ [(a, b)] }
  else if s.height b < s.height a then { s with taken := s.taken ++ [(b, a)] }
  else ⟨s.taken ++ [(b, a)], a :: s.grown⟩

/-- The sets that come of joining pairs in turn. -/
def ofPairs (pairs : List (α × α)) : DisjointSets α :=
  pairs.foldl (fun s p => s.union p.1 p.2) alone

/-- Puts an item into the group under a key. A new group comes last. -/
def putInGroup (key x : α) : List (α × List α) → List (α × List α)
  | [] => [(key, [x])]
  | g :: gs => if g.1 = key then (key, g.2 ++ [x]) :: gs else g :: putInGroup key x gs

/-- Some items by the representatives of their sets. The items of a group keep their order, and the
groups are ordered by their first item. -/
def groups (s : DisjointSets α) (items : List α) : List (α × List α) :=
  items.foldl (fun gs x => putInGroup (s.find x) x gs) []

end DisjointSets

end Ontogram
