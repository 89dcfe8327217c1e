import Ontogram.Instance.Basic

/-!
# Adopting a model

Adopting splices a model and everything below it from a reference template into an instance,
together with the rank terms above every spliced term. The model becomes the instance term.
Placeholders are removed afterwards, and the free variables below the instance term are scoped.
-/

namespace Ontogram.Instance

/-- The terms of a template that are spliced with a model. -/
def splicedTerms (template : TermGraph) (model : String) : List String :=
  let below := model :: template.descendants model
  below ++ below.flatMap template.rankAncestors

/-- The part of a template that is spliced with a model, under the name of the instance. -/
def splice (template : TermGraph) (model name : String) : TermGraph :=
  let part := template.retain (splicedTerms template model)
  (part.relabel? model name).getD part

/-- Splices a model of a template into an instance. -/
def adopt (e : Instance) (template : TermGraph) (model : String) : Outcome Instance :=
  if template.contains model then
    let graph := e.graph.compose (splice template model e.name)
    let graph := (graph.removeWhere fun t => Label.isPlaceholder t.label).1
    { e with graph := graph }.scopeFree
  else .failed e (.unknownModel e.name model)

end Ontogram.Instance
