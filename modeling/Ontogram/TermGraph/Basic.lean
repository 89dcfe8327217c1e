import Ontogram.TermGraph.Valid
import Ontogram.TermGraph.Walk

/-!
# Term graphs

A directed graph of terms with unique labels, and at most one relation for each ordered pair of
terms: relating a pair again overwrites its relation. It is a valid arena; everything is enumerated
in the order of the slots.

What an arena answers, its graph answers. The changes are those of the arena, with the proof that
the outcome is valid again.
-/

namespace Ontogram

/-- A valid arena. -/
@[ext]
structure TermGraph extends Arena where
  valid : toArena.Valid

namespace TermGraph

/-- The graph without terms. -/
def empty : TermGraph :=
  ⟨.empty, Arena.valid_empty⟩

/-- Adds a term of that label unless there is one. -/
def ensure (g : TermGraph) (label : String) : TermGraph :=
  ⟨g.toArena.ensure label, g.valid.ensure label⟩

/-- Relates two terms, which are added if they are missing. -/
def relate (g : TermGraph) (a : Arc) : TermGraph :=
  ⟨g.toArena.relate a, g.valid.relate a⟩

/-- Removes a term with its arcs. None if there is no such term. -/
def remove? (g : TermGraph) (label : String) : Option TermGraph :=
  (g.toArena.remove? label).pmap TermGraph.mk fun _ h => g.valid.remove? h

/-- Removes the terms that satisfy `p`, in slot order, and counts them. -/
def removeWhere (g : TermGraph) (p : Term → Bool) : TermGraph × Nat :=
  (⟨(g.toArena.removeWhere p).1, g.valid.removeWhere p⟩, (g.toArena.removeWhere p).2)

/-- Keeps the terms of the labels and no others. -/
def retain (g : TermGraph) (keep : List String) : TermGraph :=
  ⟨g.toArena.retain keep, g.valid.retain keep⟩

/-- Renames a term, or merges it into the one that has the new label. None if there is no term of
the old label. -/
def relabel? (g : TermGraph) (old new : String) : Option TermGraph :=
  (g.toArena.relabel? old new).pmap TermGraph.mk fun _ h => g.valid.relabel? h

/-- Adds the terms and arcs of another graph. What both graphs have takes the attributes of the
other. -/
def compose (g other : TermGraph) : TermGraph :=
  ⟨g.toArena.compose other.toArena, g.valid.compose other.toArena⟩

/-- The graph of a table, with its term types. The error names the members of a hierarchy without
root. -/
def ofRows (rows : List Row) : Except (List String) TermGraph :=
  match h : Arena.ofRows rows with
  | .ok g => .ok ⟨g, Arena.valid_ofRows h⟩
  | .error members => .error members

/-- The graph of a template. -/
def load (library : Library) (name : String) : Except TemplateError TermGraph :=
  match library.rows name with
  | .error e => .error e
  | .ok [] => .error (.noRelationships name)
  | .ok rows =>
    match ofRows rows with
    | .ok g => .ok g
    | .error members => .error (.cyclicRanks members)

end TermGraph

end Ontogram
