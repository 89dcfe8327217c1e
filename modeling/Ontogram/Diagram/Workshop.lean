import Ontogram.Diagram.Plan
import Ontogram.Instance.Adopt
import Ontogram.Instance.Bind
import Ontogram.Instance.Link
import Ontogram.Label.Directive

/-!
# The instances of a diagram

While a diagram compiles, every element whose label instantiates a template has its instance, kept
under the id of the element. An element whose template failed is remembered with the cause, and is
an error only for what needs it.
-/

namespace Ontogram

/-- Why a component gave no ontology. -/
inductive CompileError where
  /-- The label of the element instantiates nothing. -/
  | missingOntology (nodeId : String)
  | instantiation (nodeId : String) (cause : InstanceError)
  | selfBinding (nodeId : String)
  | malformedTerm (nodeId : String) (cause : Label.DirectiveError)
  /-- An edge leads to every element of the component. -/
  | noRoot (nodeId : String)
  | ontology (cause : InstanceError)
  | template (cause : TemplateError)
deriving Repr, DecidableEq

/-- The text of a compile error, with its causes behind it. -/
def CompileError.message : CompileError → String
  | .missingOntology nodeId => s!"diagram node `{nodeId}` has no ontology instance"
  | .instantiation nodeId cause =>
    s!"failed to instantiate diagram node `{nodeId}`: " ++ cause.message
  | .selfBinding nodeId => s!"diagram node `{nodeId}` is bound to itself"
  | .malformedTerm nodeId cause =>
    s!"malformed term on diagram node `{nodeId}`: " ++ cause.message
  | .noRoot nodeId => s!"component containing `{nodeId}` has no root (cyclic relationships)"
  | .ontology cause => cause.message
  | .template cause => cause.message

/-- The instances of the elements. -/
structure Workshop where
  instances : List (String × Instance)
  /-- The elements whose instantiation failed. -/
  failed : List (String × InstanceError)

namespace Workshop

/-- The instance of an element. -/
def get? (w : Workshop) (id : String) : Option Instance :=
  (w.instances.find? fun e => e.1 == id).map Prod.snd

/-- Why an element has no instance. -/
def missing (w : Workshop) (id : String) : CompileError :=
  match w.failed.find? fun e => e.1 == id with
  | some e => .instantiation id e.2
  | none => .missingOntology id

/-- The instance of an element, or why it has none. -/
def get (w : Workshop) (id : String) : Except CompileError Instance :=
  match w.get? id with
  | some e => .ok e
  | none => .error (w.missing id)

/-- Replaces the instance of an element. -/
def put (w : Workshop) (id : String) (e : Instance) : Workshop :=
  { w with instances := w.instances.map fun f => if f.1 = id then (id, e) else f }

/-- Makes the instance of an element, if its label asks for one. -/
def addElement (library : Library) (isComponent : String → Bool) (w : Workshop) (e : Element) :
    Workshop :=
  match Label.Instantiation.parse e.content with
  | .error _ => w
  | .ok d =>
    match Instance.instantiate library d.name d.base d.selfTerm with
    | .ok i =>
      { w with instances := w.instances ++ [(e.id, { i with isComponent := isComponent e.id })] }
    | .error cause => { w with failed := w.failed ++ [(e.id, cause)] }

/-- Makes the instances of all elements. -/
def create (library : Library) (o : OperationGraph) : Workshop :=
  o.graph.elements.foldl (addElement library o.isComponent) ⟨[], []⟩

/-- Takes over the outcome of an operation on the instance of an element. -/
def finish (w : Workshop) (id : String) (o : Outcome Instance) : Workshop × Option CompileError :=
  (w.put id o.state, o.error?.map .ontology)

/-- Runs an operation on the instance of an element. -/
def change (w : Workshop) (id : String) (f : Instance → Outcome Instance) :
    Workshop × Option CompileError :=
  match w.get id with
  | .error error => (w, some error)
  | .ok e => w.finish id (f e)

/-- Binds the instance of an element into that of another. -/
def bind (w : Workshop) (parentId childId : String) : Workshop × Option CompileError :=
  if parentId = childId then (w, some (.selfBinding parentId))
  else
    match w.get childId, w.get parentId with
    -- A missing child is reported before a missing parent.
    | .error error, _ => (w, some error)
    | .ok _, .error error => (w, some error)
    | .ok child, .ok parent =>
      let o := parent.bind child
      ((w.put parentId o.state.1).put childId o.state.2, o.error?.map .ontology)

end Workshop

end Ontogram
