import Ontogram.Text.Blank

/-!
# Kinds of operations

What a drawn relation asks for, by its name, and the weight by which operations are scheduled: the
heavier ones run first.
-/

namespace Ontogram

/-- What a relation of a diagram asks for. -/
inductive OperationKind where
  | place
  | bind
  | define
  | link
  | adopt
  /-- Anything else; it is never executed. -/
  | other
deriving Repr, DecidableEq

namespace OperationKind

/-- The relation of a place. -/
def placeRel : String := "mds:place"

/-- The relation of a bind. -/
def bindRel : String := "mds:bind"

/-- The kind of a relation, by its name without the blanks around it. -/
def ofRel (rel : String) : OperationKind :=
  let rel := Text.trim rel
  if rel = placeRel then .place
  else if rel = bindRel then .bind
  else if rel = "mds:define" then .define
  else if rel = "mds:link" then .link
  else if rel = "mds:adopt" then .adopt
  else .other

/-- The scheduling weight. -/
def weight : OperationKind → Nat
  | .other => 0
  | .place => 1
  | .bind => 2
  | .define => 3
  | .link => 4
  | .adopt => 5

/-- The name of a kind. -/
def name : OperationKind → String
  | .place => "place"
  | .bind => "bind"
  | .define => "define"
  | .link => "link"
  | .adopt => "adopt"
  | .other => "other"

end OperationKind

end Ontogram
