import Ontogram.Instance.Basic
import Ontogram.Text.Ascending

/-!
# Linking an identifier

A link composes a linking template into an instance and relates a variable of the instance to an
identifier, which takes the place of the template's stand-in. A link that names no variable takes
the end of the only characteristic relation.
-/

namespace Ontogram.Instance

/-- The ends of the characteristic relations, each once, in ascending order. -/
def linkCandidates (e : Instance) (characteristic : String) : List String :=
  Text.ascending ((e.graph.pairsOfKind characteristic).map Prod.snd)

/-- The term that a link attaches to. -/
def linkTerm (e : Instance) (key? : Option String) (kinds : RelationKinds) :
    Except InstanceError String :=
  match key? with
  | some key =>
    match e.registry.resolve key with
    | .ok term => .ok term
    | .error cause => .error (.registry cause)
  | none =>
    match e.linkCandidates kinds.characteristic with
    | [only] => .ok only
    | candidates => .error (.ambiguousLink e.name candidates)

/-- Relates a variable of the instance to an identifier. -/
def link (e : Instance) (target : TermGraph) (id : String) (key? : Option String)
    (kinds : RelationKinds) : Outcome Instance :=
  match e.linkTerm key? kinds with
  | .error error => .failed e error
  | .ok term =>
    if e.graph.contains term then
      let e := e.composeGraph target
      let e := e.relate ⟨term, kinds.identifierPlaceholder, ⟨kinds.resource, false⟩⟩
      e.replace kinds.identifierPlaceholder id true
    else .failed e (.unknownTerm e.name term)

end Ontogram.Instance
