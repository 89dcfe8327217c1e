import Ontogram.Instance.Basic
import Ontogram.Text.Ascending

/-!
# Binding instances

A bind composes a child instance into a parent. The graph of the child must hold a path from the
label of the parent's self term to the instance term of the child. Terms of the path that are still
unresolved variables of the child, and that the parent knows, are renamed to what the parent
resolves them to, so that the two graphs share them. If the parent is a component, the child's
remaining free variables are scoped under the parent's name.

An instance is bound into one parent at most. The parent keeps the term right above the child as its
connector.
-/

namespace Ontogram.Instance

/-- The label that a term of the path gets, if the parent resolves it to another one. -/
def shared? (parent child : Instance) (label : String) : Option String :=
  if (child.registry.keyOf? label).getD label = label then
    match parent.registry.get? label with
    | some value => if value = label then none else some value
    | none => none
  else none

/-- The renames that let the child share terms with the parent. -/
def sharings (parent child : Instance) (path : List String) : List (String × String) :=
  path.filterMap fun label => (shared? parent child label).map fun value => (label, value)

/-- The connector after the renames. A rename that gives it a label which is renamed later in the
path carries it on. -/
def connectorAfter (connector : String) (renames : List (String × String)) : String :=
  renames.foldl (fun c r => if r.1 = c then r.2 else c) connector

/-- The path from the parent's self term to the instance term of the child, if it has two ends. -/
def bindPath? (parent child : Instance) : Option (List String) :=
  match child.graph.shortestPath? parent.selfTerm child.selfLabel with
  | some path => if 2 ≤ path.length then some path else none
  | none => none

/-- The last term but one of a path. -/
def lastButOne (path : List String) : String :=
  (path.dropLast.getLast?).getD ""

/-- Binds a child into a parent. The state is the parent and the child. -/
def bind (parent child : Instance) : Outcome (Instance × Instance) :=
  match child.parent with
  | some former => .failed (parent, child) (.reparent child.name former)
  | none =>
    match bindPath? parent child with
    | none =>
      .failed (parent, child)
        (.structuralPath parent.name child.name parent.selfTerm child.selfLabel)
    | some path =>
      let renames := sharings parent child path
      let renamed := (child.replaceAll renames).andThen fun child =>
        if parent.isComponent then child.scopeUnder parent.name else .done child
      match renamed.error? with
      | some error => .failed (parent, renamed.state) error
      | none =>
        let child := { renamed.state with parent := some parent.name }
        let parent := { parent with
          children := Text.insertAscending child.name parent.children
          connector := some (connectorAfter (lastButOne path) renames)
          graph := parent.graph.compose child.graph }
        .done (parent, child)

end Ontogram.Instance
