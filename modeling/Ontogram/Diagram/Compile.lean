import Ontogram.Diagram.References
import Ontogram.Diagram.Report
import Ontogram.Diagram.Workshop

/-!
# Compiling a diagram

A compilation makes the instances of all elements and then compiles the components in the order of
the plan. A component executes its operations, stitches its secondary relations into the graph of
its root, and gives the table of that graph. A component that fails gives no ontology and is
reported; the others go on.

A bind whose child has no path from the parent's self term is skipped.

`Progress.execute` and `ComponentPlan.compile` load a template whenever an operation takes from it.
A compilation shares the templates among its components: `Session.execute` and
`ComponentPlan.compileWith` are the same with templates that are kept.
-/

namespace Ontogram

/-- What a component has done so far: the instances, and the binds it skipped. -/
structure Progress where
  workshop : Workshop
  skipped : List SkippedBinding

namespace Progress

/-- Takes over what became of an instance. -/
def continueWith (p : Progress) (r : Workshop × Option CompileError) :
    Progress × Option CompileError :=
  ({ p with workshop := r.1 }, r.2)

/-- Executes a bind. -/
def bind (p : Progress) (op : PlannedOperation) : Progress × Option CompileError :=
  match p.workshop.bind op.parentId op.childId with
  | (w, some (.ontology (.structuralPath parent child source target))) =>
    let reason := (InstanceError.structuralPath parent child source target).message
    ({ workshop := w, skipped := p.skipped ++ [⟨op.relId, op.parentId, op.childId, reason⟩] }, none)
  | r => p.continueWith r

/-- Executes an adopt from a template, if that could be loaded. -/
def adoptFrom (template : Except TemplateError TermGraph) (p : Progress) (op : PlannedOperation) :
    Progress × Option CompileError :=
  match template with
  | .error cause => (p, some (.template cause))
  | .ok template =>
    p.continueWith (p.workshop.change op.parentId fun e =>
      e.adopt template (Label.displayName op.child))

/-- Executes an adopt. -/
def adopt (library : Library) (settings : Settings) (p : Progress) (op : PlannedOperation) :
    Progress × Option CompileError :=
  p.adoptFrom (TermGraph.load library settings.adoptTemplate) op

/-- Executes a define. -/
def define (p : Progress) (op : PlannedOperation) : Progress × Option CompileError :=
  match Label.Binding.parse op.child with
  | .error cause => (p, some (.malformedTerm op.childId cause))
  | .ok d => p.continueWith (p.workshop.change op.parentId fun e => e.define d.key d.value)

/-- The identifier of a link and the variable it names, if it names one. -/
def linkArguments (label : String) : String × Option String :=
  match Label.Binding.parse label with
  | .ok d => (d.value, some d.key)
  | .error _ => (Label.plain label, none)

/-- Executes a link with a template, if that could be loaded. -/
def linkFrom (kinds : RelationKinds) (template : Except TemplateError TermGraph) (p : Progress)
    (op : PlannedOperation) : Progress × Option CompileError :=
  let (id, key?) := linkArguments op.child
  match template with
  | .error cause => (p, some (.template cause))
  | .ok template =>
    p.continueWith (p.workshop.change op.parentId fun e => e.link template id key? kinds)

/-- Executes a link. -/
def link (library : Library) (settings : Settings) (p : Progress) (op : PlannedOperation) :
    Progress × Option CompileError :=
  p.linkFrom settings.kinds (TermGraph.load library settings.linkTemplate) op

/-- Executes an operation. -/
def execute (library : Library) (settings : Settings) (p : Progress) (op : PlannedOperation) :
    Progress × Option CompileError :=
  match op.kind with
  | .bind => p.bind op
  | .adopt => adopt library settings p op
  | .define => p.define op
  | .link => link library settings p op
  | .place | .other => (p, none)

/-- Executes operations in turn, up to the first failure. -/
def executeAll (library : Library) (settings : Settings) :
    List PlannedOperation → Progress → Progress × Option CompileError
  | [], p => (p, none)
  | op :: ops, p =>
    match execute library settings p op with
    | (p, none) => executeAll library settings ops p
    | (p, some error) => (p, some error)

end Progress

/-- The templates at hand, and what a component has done so far. -/
structure Session where
  references : References
  progress : Progress

namespace Session

/-- Takes over the templates, and what became of the progress. -/
def resume (references : References) (r : Progress × Option CompileError) :
    Session × Option CompileError :=
  (⟨references, r.1⟩, r.2)

/-- Executes an operation with the templates at hand. -/
def execute (library : Library) (settings : Settings) (s : Session) (op : PlannedOperation) :
    Session × Option CompileError :=
  match op.kind with
  | .adopt =>
    let (references, template) := s.references.fetch library settings.adoptTemplate
    resume references (s.progress.adoptFrom template op)
  | .link =>
    let (references, template) := s.references.fetch library settings.linkTemplate
    resume references (s.progress.linkFrom settings.kinds template op)
  -- The other operations take from no template.
  | _ => resume s.references (Progress.execute library settings s.progress op)

/-- Executes operations in turn, up to the first failure. -/
def executeAll (library : Library) (settings : Settings) :
    List PlannedOperation → Session → Session × Option CompileError
  | [], s => (s, none)
  | op :: ops, s =>
    match execute library settings s op with
    | (s, none) => executeAll library settings ops s
    | (s, some error) => (s, some error)

end Session

namespace Workshop

/-- Adds a graph to that of an instance unless a term of that name is there. -/
def composeMissing (root : Instance) (name : String) (graph : TermGraph) : Instance :=
  if root.graph.contains name then root else root.composeGraph graph

/-- Stitches a secondary relation into the graph of a root. -/
def stitch (w : Workshop) (rootId : String) (r : SecondaryRelation) :
    Workshop × Option CompileError :=
  match w.get r.parentId, w.get r.childId, w.get rootId with
  | .error error, _, _ => (w, some error)
  | .ok _, .error error, _ => (w, some error)
  | .ok _, .ok _, .error error => (w, some error)
  | .ok parent, .ok child, .ok root =>
    let root := composeMissing root parent.name parent.graph
    let root := composeMissing root child.name child.graph
    (w.put rootId (root.relate ⟨parent.name, child.name, ⟨r.rel, false⟩⟩), none)

/-- Stitches secondary relations in turn, up to the first failure. -/
def stitchAll (rootId : String) : List SecondaryRelation → Workshop → Workshop × Option CompileError
  | [], w => (w, none)
  | r :: rs, w =>
    match w.stitch rootId r with
    | (w, none) => stitchAll rootId rs w
    | (w, some error) => (w, some error)

/-- The name of the ontology of an instance. -/
def ontologyName (name : String) : String :=
  Text.trim (Label.withoutContainerMarkers name)

/-- The ontology of a root. -/
def emitOntology (w : Workshop) (rootId : String) : Except CompileError CompiledOntology :=
  match w.get rootId with
  | .error error => .error error
  | .ok root => .ok ⟨rootId, ontologyName root.name, root.graph.rows⟩

end Workshop

/-- What came of a component. -/
structure ComponentResult where
  workshop : Workshop
  skipped : List SkippedBinding
  ontology : Except CompileError CompiledOntology

namespace ComponentPlan

/-- What comes of a component whose operations were executed, or failed. -/
def conclude (c : ComponentPlan) (rootId : String) :
    Progress × Option CompileError → ComponentResult
  | (p, some error) => ⟨p.workshop, p.skipped, .error error⟩
  | (p, none) =>
    match Workshop.stitchAll rootId c.secondary p.workshop with
    | (w, some error) => ⟨w, p.skipped, .error error⟩
    | (w, none) => ⟨w, p.skipped, w.emitOntology rootId⟩

/-- Compiles a component. -/
def compile (library : Library) (settings : Settings) (c : ComponentPlan) (w : Workshop) :
    ComponentResult :=
  match c.rootId with
  | none => ⟨w, [], .error (.noRoot (c.nodes.headD ""))⟩
  | some rootId =>
    c.conclude rootId (Progress.executeAll library settings c.operations ⟨w, []⟩)

/-- Compiles a component with the templates at hand. -/
def compileWith (library : Library) (settings : Settings) (c : ComponentPlan)
    (references : References) (w : Workshop) : References × ComponentResult :=
  match c.rootId with
  | none => (references, ⟨w, [], .error (.noRoot (c.nodes.headD ""))⟩)
  | some rootId =>
    let (s, error?) := Session.executeAll library settings c.operations ⟨references, ⟨w, []⟩⟩
    (s.references, c.conclude rootId (s.progress, error?))

/-- The report on a component. -/
def report (c : ComponentPlan) (r : ComponentResult) : ComponentReport where
  rootId := c.rootId
  operations := c.operations.length
  skipped := r.skipped
  unreached := c.unreached
  error :=
    match r.ontology with
    | .ok _ => none
    | .error error => some error.message

end ComponentPlan

/-- Compiles components in turn, each with the templates and on the instances that the ones before
it left. -/
def compileComponents (library : Library) (settings : Settings) :
    List ComponentPlan → References → Workshop → List (ComponentPlan × ComponentResult)
  | [], _, _ => []
  | c :: cs, references, w =>
    let (references, r) := c.compileWith library settings references w
    (c, r) :: compileComponents library settings cs references r.workshop

/-- The ontology of a result, if there is one. -/
def ComponentResult.ontology? (r : ComponentResult) : Option CompiledOntology :=
  match r.ontology with
  | .ok o => some o
  | .error _ => none

/-- Compiles a diagram. -/
def compile (library : Library) (settings : Settings) (drawing : Drawing) (ids : IdSource) :
    CompiledDiagram :=
  let (o, _) := OperationGraph.build drawing settings ids
  let plan := ExecutionPlan.ofGraph o
  let results :=
    compileComponents library settings plan.components .empty (Workshop.create library o)
  { ontologies := results.filterMap fun (_, r) => r.ontology?
    report :=
      { components := results.map fun (c, r) => c.report r
        isolates := plan.isolates
        unplaced := plan.unplaced.map SecondaryRelation.relId } }

end Ontogram
