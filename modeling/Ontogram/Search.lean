/-!
# Breadth-first search

A search over the items that `next` reaches from a start. Each item is visited once, and a visit
remembers the item it was first reached from, so a shortest trail to an item can be read back.

The search takes the number of items as its fuel: every step takes one item out of the queue, and
an item enters the queue only once.
-/

namespace Ontogram

/-- An item in a search, and the item it was first reached from. -/
structure Visit (α : Type) where
  item : α
  via : Option α
deriving Repr, DecidableEq

namespace Search

variable {α : Type} [DecidableEq α]

/-- Says whether an item was visited. -/
def seenIn (seen : List (Visit α)) (x : α) : Bool :=
  seen.any fun v => v.item == x

/-- The items of a list that were not visited yet, each once, as visits from `via`. -/
def discover (via : α) : List α → List (Visit α) → List (Visit α)
  | [], _ => []
  | x :: xs, seen =>
    if seenIn seen x then discover via xs seen
    else ⟨x, some via⟩ :: discover via xs (seen ++ [⟨x, some via⟩])

/-- Takes the items of the queue in turn and adds what each one reaches. -/
def explore (next : α → List α) : Nat → List (Visit α) → List (Visit α) → List (Visit α)
  | 0, seen, _ => seen
  | _ + 1, seen, [] => seen
  | fuel + 1, seen, v :: queue =>
    let found := discover v.item (next v.item) seen
    explore next fuel (seen ++ found) (queue ++ found)

/-- Every item reached from the start, the start included, in the order of the visits. The fuel
`size` is the number of items there are. -/
def visits (next : α → List α) (size : Nat) (start : α) : List (Visit α) :=
  explore next size [⟨start, none⟩] [⟨start, none⟩]

/-- Every item reached from the start, the start included. -/
def reached (next : α → List α) (size : Nat) (start : α) : List α :=
  (visits next size start).map Visit.item

/-- Follows the visits back from `goal`, the latest visit first. -/
def trailTo (goal : α) : List (Visit α) → List α → List α
  | [], rest => rest
  | v :: earlier, rest =>
    if v.item = goal then
      match v.via with
      | none => v.item :: rest
      | some p => trailTo p earlier (v.item :: rest)
    else trailTo goal earlier rest

/-- A shortest way from the start to the goal, both included. -/
def trail? (next : α → List α) (size : Nat) (start goal : α) : Option (List α) :=
  let vs := visits next size start
  if seenIn vs goal then some (trailTo goal vs.reverse []) else none

end Search

end Ontogram
