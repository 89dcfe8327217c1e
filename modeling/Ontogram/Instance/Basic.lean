import Ontogram.Registry
import Ontogram.TermGraph.Basic

/-!
# Ontology instances

An instance of a template: its name, its graph, and a registry of what its template variables stand
for. Making an instance renames the template's self term to the name of the instance and scopes
every free variable below it: the variable becomes the name, a blank and its own stem.

An operation may fail half way in principle, so its outcome is a state and, if it failed, the error;
the operations that change labels all go through `replace`.
-/

namespace Ontogram

/-- The kinds of relations and the template term that a link relies on. -/
structure RelationKinds where
  /-- Marks the variable a link attaches to when none is named. -/
  characteristic : String
  /-- The kind of the arc from the variable to the identifier. -/
  resource : String
  /-- The stand-in of the identifier in the linking template. -/
  identifierPlaceholder : String
deriving Repr, DecidableEq

namespace RelationKinds

/-- The kinds that hold when nothing else is configured. -/
def standard : RelationKinds :=
  ⟨"pmd:characteristic", "pmd:resource", "db_identifier_"⟩

/-- Reads kinds. What is left out is standard. -/
def ofJson? (j : Json) : Option RelationKinds := do
  let f ← Json.fields? ["characteristic", "resource", "identifier_placeholder"] j
  let characteristic ← f.withDefault 0 standard.characteristic Json.string?
  let resource ← f.withDefault 1 standard.resource Json.string?
  let identifierPlaceholder ← f.withDefault 2 standard.identifierPlaceholder Json.string?
  pure ⟨characteristic, resource, identifierPlaceholder⟩

/-- Writes kinds. -/
def toJson (k : RelationKinds) : Json :=
  .object [("characteristic", .string k.characteristic), ("resource", .string k.resource),
    ("identifier_placeholder", .string k.identifierPlaceholder)]

end RelationKinds

/-- An instance of a template. -/
structure Instance where
  name : String
  /-- The template's label of the term that became the instance. -/
  selfTerm : String
  /-- The name of the template. -/
  base : String
  graph : TermGraph
  registry : Registry
  /-- The name of the instance that this one was bound into. -/
  parent : Option String
  /-- The names of the instances bound into this one, in ascending order. -/
  children : List String
  /-- The term right above the self term of the instance that was bound last. -/
  connector : Option String
  /-- Says whether the instances bound into this one have their free variables scoped. -/
  isComponent : Bool

/-- Why an operation on an instance failed. -/
inductive InstanceError where
  | reparent (child parent : String)
  | ambiguousLink (name : String) (candidates : List String)
  | structuralPath (parent child source target : String)
  | unknownTerm (name term : String)
  | unknownModel (name model : String)
  | registry (cause : RegistryError)
  | template (cause : TemplateError)
deriving Repr, DecidableEq

/-- The candidates for a link as the error text shows them. -/
def listCandidates (candidates : List String) : String :=
  if candidates.isEmpty then "" else " (" ++ String.intercalate ", " candidates ++ ")"

/-- The text of an instance error. -/
def InstanceError.message : InstanceError → String
  | .reparent child parent => s!"ontology `{child}` already has parent `{parent}`"
  | .ambiguousLink name candidates =>
    s!"cannot infer link variable for `{name}`: expected one characteristic relationship, found "
      ++ toString candidates.length ++ listCandidates candidates
  | .structuralPath parent child source target =>
    s!"no path from `{source}` to `{target}` while binding `{child}` into `{parent}`"
  | .unknownTerm name term => s!"term `{term}` is not in the graph of `{name}`"
  | .unknownModel name model =>
    s!"adopt model `{model}` is not in the reference template (adopting into `{name}`)"
  | .registry cause => cause.message
  | .template cause => cause.message

/-- A state after an operation, and the error if the operation failed. -/
structure Outcome (σ : Type) where
  state : σ
  error? : Option InstanceError

namespace Outcome

variable {σ : Type}

/-- The operation succeeded. -/
def done (s : σ) : Outcome σ :=
  ⟨s, none⟩

/-- The operation failed. -/
def failed (s : σ) (e : InstanceError) : Outcome σ :=
  ⟨s, some e⟩

/-- Goes on from the state unless the operation failed. -/
def andThen (o : Outcome σ) (f : σ → Outcome σ) : Outcome σ :=
  match o.error? with
  | none => f o.state
  | some _ => o

end Outcome

namespace Instance

/-- Renames a term of the graph and, unless `silent`, records the rename in the registry. -/
def replace (e : Instance) (old new : String) (silent : Bool) : Outcome Instance :=
  if old = new then .done e
  else
    match e.graph.relabel? old new with
    | none => .failed e (.unknownTerm e.name old)
    | some graph =>
      .done { e with
        graph := graph
        registry := if silent then e.registry else e.registry.recordRename old new }

/-- Renames terms in turn, up to the first failure. -/
def replaceAll (e : Instance) : List (String × String) → Outcome Instance
  | [] => .done e
  | (old, new) :: rest => (e.replace old new false).andThen fun e => e.replaceAll rest

/-- The renames that scope the free ones of some labels. -/
def scopings (scope : String) (labels : List String) : List (String × String) :=
  (labels.filter Label.isFree).map fun label => (label, Label.scopedVariable scope label)

/-- The term that the self term stands for. -/
def selfLabel (e : Instance) : String :=
  (e.registry.get? e.selfTerm).getD e.selfTerm

/-- Scopes every free variable below the instance term under the name of the instance. -/
def scopeFree (e : Instance) : Outcome Instance :=
  e.replaceAll (scopings e.name (e.graph.descendants e.name))

/-- Scopes every free variable of the graph under another name. -/
def scopeUnder (e : Instance) (scope : String) : Outcome Instance :=
  e.replaceAll (scopings scope e.graph.variableLabels)

/-- An instance before its self term is renamed: every variable stands for itself. -/
def unbound (name base selfTerm : String) (graph : TermGraph) : Instance where
  name := name
  selfTerm := selfTerm
  base := base
  graph := graph
  registry := .identity graph.variableLabels
  parent := none
  children := []
  connector := none
  isComponent := false

/-- Makes an instance of a graph. -/
def ofGraph (name base selfTerm : String) (graph : TermGraph) : Except InstanceError Instance :=
  let e := unbound name base selfTerm graph
  let o := (e.replace e.selfLabel name false).andThen scopeFree
  match o.error? with
  | none => .ok o.state
  | some error => .error error

/-- Makes an instance of a template. -/
def instantiate (library : Library) (name base selfTerm : String) : Except InstanceError Instance :=
  match TermGraph.load library base with
  | .error cause => .error (.template cause)
  | .ok graph => ofGraph name base selfTerm graph

/-- Adds an arc to the graph. The registry does not change. -/
def relate (e : Instance) (a : Arc) : Instance :=
  { e with graph := e.graph.relate a }

/-- Adds a graph to the graph. The registry does not change. -/
def composeGraph (e : Instance) (graph : TermGraph) : Instance :=
  { e with graph := e.graph.compose graph }

/-- Renames the term that a template variable stands for. -/
def define (e : Instance) (key value : String) : Outcome Instance :=
  match e.registry.resolve key with
  | .error cause => .failed e (.registry cause)
  | .ok current => e.replace current value false

end Instance

end Ontogram
