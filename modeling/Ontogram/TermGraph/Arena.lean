import Ontogram.Label.Marker
import Ontogram.Slots
import Ontogram.Template

/-!
# Arenas of terms

The store behind a term graph. Terms and links live in slots; a link names its ends by slot, and an
index gives the slot of each label. Every change keeps three things in step: the slots of the terms,
the slots of the links and the index. What they promise each other is `Arena.Valid`.

`relabel?` renames a term. If the new label is taken, the two terms become one: the links of the
renamed term are carried over and overwrite, and its attributes win.

The changes that the other modules use are `ensure`, `relate`, `relabel?`, `remove?`, `removeWhere`
and `compose`.
-/

namespace Ontogram

/-- A term. -/
structure Term where
  label : String
  /-- Says whether the term was created with the label of a rank term. -/
  isRank : Bool
  /-- The root of the rank hierarchy that the term belongs to, if any. -/
  termType : Option String
deriving Repr, DecidableEq

/-- A term with a label and nothing else known. -/
def Term.ofLabel (label : String) : Term :=
  ⟨label, Label.isRank label, none⟩

/-- What relates a term to another. -/
structure Relation where
  rel : String
  isRank : Bool
deriving Repr, DecidableEq

/-- A relation between two terms, by their labels. -/
structure Arc where
  parent : String
  child : String
  relation : Relation
deriving Repr, DecidableEq

/-- The arc of a row. -/
def Row.toArc (r : Row) : Arc :=
  ⟨r.parent, r.child, ⟨r.rel, r.isRank⟩⟩

/-- The row of an arc. -/
def Arc.toRow (a : Arc) : Row :=
  ⟨a.parent, a.child, a.relation.rel, a.relation.isRank⟩

/-- A relation between two terms, by their slots. -/
structure Link where
  source : Nat
  target : Nat
  relation : Relation
deriving Repr, DecidableEq

/-- Says whether a link joins two slots. -/
def Link.joins (k : Link) (source target : Nat) : Bool :=
  k.source == source && k.target == target

/-- A finite map. Two maps with the same entries are equal. -/
abbrev Lookup (κ ν : Type) := κ → Option ν

namespace Lookup

variable {κ ν : Type}

/-- The map without entries. -/
def empty : Lookup κ ν :=
  fun _ => none

@[simp]
theorem empty_apply (k : κ) : (empty : Lookup κ ν) k = none := rfl

variable [DecidableEq κ]

/-- The map with an entry, in place of the one of its key. -/
def insert (m : Lookup κ ν) (key : κ) (value : ν) : Lookup κ ν :=
  fun k => if k = key then some value else m k

/-- The map without the entry of a key. -/
def erase (m : Lookup κ ν) (key : κ) : Lookup κ ν :=
  fun k => if k = key then none else m k

@[grind =]
theorem insert_apply (m : Lookup κ ν) (key k : κ) (value : ν) :
    m.insert key value k = if k = key then some value else m k := rfl

@[grind =]
theorem erase_apply (m : Lookup κ ν) (key k : κ) :
    m.erase key k = if k = key then none else m k := rfl

end Lookup

/-- Terms and links in slots, and the slots of the labels. -/
@[ext]
structure Arena where
  terms : Slots Term
  links : Slots Link
  index : Lookup String Nat

namespace Arena

/-- The arena without terms. -/
def empty : Arena :=
  ⟨Slots.empty, Slots.empty, Lookup.empty⟩

/-! ## Reading -/

/-- The terms in slot order. -/
def termList (g : Arena) : List Term :=
  g.terms.toList

/-- The number of terms. -/
def size (g : Arena) : Nat :=
  g.terms.size

/-- The number of links. -/
def arcCount (g : Arena) : Nat :=
  g.links.size

/-- The labels in slot order. -/
def labels (g : Arena) : List String :=
  g.termList.map Term.label

/-- Says whether a label is a term. -/
def contains (g : Arena) (label : String) : Bool :=
  (g.index label).isSome

/-- The term of a label. -/
def term? (g : Arena) (label : String) : Option Term :=
  (g.index label).bind g.terms.get?

/-- The label of the term in a slot. -/
def labelAt (g : Arena) (slot : Nat) : String :=
  ((g.terms.get? slot).map Term.label).getD ""

/-- The link between two slots. -/
def link? (g : Arena) (source target : Nat) : Option Link :=
  (g.links.live.find? fun e => e.2.joins source target).map Prod.snd

/-- The relation of a pair. -/
def relation? (g : Arena) (parent child : String) : Option Relation :=
  match g.index parent, g.index child with
  | some source, some target => (g.link? source target).map Link.relation
  | _, _ => none

/-- A link with its ends by label. -/
def arcOf (g : Arena) (k : Link) : Arc :=
  ⟨g.labelAt k.source, g.labelAt k.target, k.relation⟩

/-- The arcs in slot order. -/
def arcList (g : Arena) : List Arc :=
  g.links.toList.map g.arcOf

/-- The arena as a table, in slot order. -/
def rows (g : Arena) : List Row :=
  g.arcList.map Arc.toRow

/-- The template variables among the labels, placeholders included, in slot order. -/
def variableLabels (g : Arena) : List String :=
  g.labels.filter Label.isVariable

/-- The pairs related by `rel`, in slot order. -/
def pairsOfKind (g : Arena) (rel : String) : List (String × String) :=
  (g.arcList.filter fun a => a.relation.rel == rel).map fun a => (a.parent, a.child)

/-! ## Adding -/

/-- Adds a term whose label is not taken. It takes the next slot. -/
def addTerm (g : Arena) (t : Term) : Arena where
  terms := g.terms.insert t
  links := g.links
  index := g.index.insert t.label g.terms.next

/-- Adds a term of that label unless there is one. Gives its slot. -/
def ensureSlot (g : Arena) (label : String) : Arena × Nat :=
  match g.index label with
  | some slot => (g, slot)
  | none => (g.addTerm (.ofLabel label), g.terms.next)

/-- Adds a term of that label unless there is one. -/
def ensure (g : Arena) (label : String) : Arena :=
  (g.ensureSlot label).1

/-- Adds a term, or overwrites the one of its label in its slot. Gives its slot. -/
def putTerm (g : Arena) (t : Term) : Arena × Nat :=
  match g.index t.label with
  | some slot => ({ g with terms := g.terms.update slot fun _ => t }, slot)
  | none => (g.addTerm t, g.terms.next)

/-- Adds a link, or overwrites the one between its ends in its slot. -/
def putLink (g : Arena) (k : Link) : Arena :=
  if (g.link? k.source k.target).isSome then
    { g with links := g.links.map fun _ l => if l.joins k.source k.target then k else l }
  else { g with links := g.links.insert k }

/-- Relates two terms, which are added if they are missing. -/
def relate (g : Arena) (a : Arc) : Arena :=
  let (g, source) := g.ensureSlot a.parent
  let (g, target) := g.ensureSlot a.child
  g.putLink ⟨source, target, a.relation⟩

/-! ## Removing -/

/-- Vacates the links that leave a slot, then those that reach it, then the slot. -/
def vacate (g : Arena) (slot : Nat) : Arena where
  terms := g.terms.erase slot
  links := (g.links.eraseWhere fun _ k => k.source == slot).eraseWhere fun _ k => k.target == slot
  index := g.index

/-- Takes a label out of the index. -/
def forget (g : Arena) (label : String) : Arena :=
  { g with index := g.index.erase label }

/-- Removes a term with its links. None if there is no such term. -/
def remove? (g : Arena) (label : String) : Option Arena :=
  (g.index label).map fun slot => (g.forget label).vacate slot

/-- Removes a term, if there is one of that label, and counts it. -/
def removeCounting (s : Arena × Nat) (label : String) : Arena × Nat :=
  match s.1.remove? label with
  | some g => (g, s.2 + 1)
  | none => s

/-- Removes the terms that satisfy `p`, in slot order, and counts them. -/
def removeWhere (g : Arena) (p : Term → Bool) : Arena × Nat :=
  ((g.termList.filter p).map Term.label).foldl removeCounting (g, 0)

/-- Keeps the terms of the labels and no others. -/
def retain (g : Arena) (keep : List String) : Arena :=
  (g.removeWhere fun t => !keep.contains t.label).1

/-! ## Renaming -/

/-- Gives a term a label that is not taken. -/
def rename (g : Arena) (slot : Nat) (old new : String) : Arena where
  terms := g.terms.update slot fun t => { t with label := new }
  links := g.links
  index := (g.index.erase old).insert new slot

/-- The end of a link once a slot has become another. -/
def redirect (old new slot : Nat) : Nat :=
  if slot = old then new else slot

/-- The links of a slot as they are once it has become another: the outgoing ones and then the
incoming ones, each in slot order. -/
def carried (g : Arena) (old new : Nat) : List Link :=
  ((g.links.toList.filter fun k => k.source == old).map fun k =>
      { k with source := new, target := redirect old new k.target })
    ++ (g.links.toList.filter fun k => k.target == old).map fun k =>
      { k with source := redirect old new k.source, target := new }

/-- Moves the term of a slot over that of another, under the label of the other. -/
def moveTerm (g : Arena) (old new : Nat) (label : String) : Arena :=
  match g.terms.get? old with
  | some t =>
    let g := g.vacate old
    { g with terms := g.terms.update new fun _ => { t with label := label } }
  | none => g

/-- Merges a term into the one of another label. The other keeps its slot and takes the attributes
and the links of the first. -/
def mergeInto (g : Arena) (source target : Nat) (old new : String) : Arena :=
  -- The old slots are vacated first, so the carried links take them again.
  (g.carried source target).foldl putLink ((g.forget old).moveTerm source target new)

/-- Renames a term, or merges it into the one that has the new label. None if there is no term of
the old label. -/
def relabel? (g : Arena) (old new : String) : Option Arena :=
  if old = new then if g.contains old then some g else none
  else
    match g.index old with
    | none => none
    | some source =>
      match g.index new with
      | none => some (g.rename source old new)
      | some target => some (g.mergeInto source target old new)

/-! ## Union -/

/-- Takes over a term of another arena, and notes the slot it got. -/
def takeTerm (s : Arena × Lookup Nat Nat) (e : Nat × Term) : Arena × Lookup Nat Nat :=
  let (g, slot) := s.1.putTerm e.2
  (g, s.2.insert e.1 slot)

/-- Takes over a link of another arena whose terms got the slots `taken`. -/
def takeLink (taken : Lookup Nat Nat) (g : Arena) (k : Link) : Arena :=
  match taken k.source, taken k.target with
  | some source, some target => g.putLink ⟨source, target, k.relation⟩
  | _, _ => g

/-- Adds the terms and links of another arena. What both have takes the attributes of the other. -/
def compose (g other : Arena) : Arena :=
  let (united, taken) := other.terms.entries.foldl takeTerm (g, .empty)
  other.links.toList.foldl (takeLink taken) united

end Arena

end Ontogram
