import Ontogram.Template

/-!
# Compiled diagrams

What a compilation gives: an ontology for each component that compiled, and a report on every
component. A report is clean if every component compiled, no bind was skipped, and no secondary
relation is left over.
-/

namespace Ontogram

/-- The table of a component root. -/
structure CompiledOntology where
  rootId : String
  /-- The name of the root instance without container markers. -/
  name : String
  relationships : List Row
deriving Repr, DecidableEq

/-- A bind whose child had no path from the parent's self term. -/
structure SkippedBinding where
  relId : String
  parentId : String
  childId : String
  reason : String
deriving Repr, DecidableEq

/-- What became of a component. -/
structure ComponentReport where
  rootId : Option String
  /-- The number of planned operations. -/
  operations : Nat
  skipped : List SkippedBinding
  unreached : List String
  /-- The error text of a component that gave no ontology. -/
  error : Option String
deriving Repr, DecidableEq

/-- Says whether a component gave an ontology. -/
def ComponentReport.isSuccess (c : ComponentReport) : Bool :=
  c.error.isNone

/-- What became of a diagram. -/
structure CompileReport where
  components : List ComponentReport
  isolates : List String
  /-- The secondary relations that no component could take. -/
  unplaced : List String
deriving Repr, DecidableEq

namespace CompileReport

/-- The components that gave no ontology. -/
def failures (r : CompileReport) : List ComponentReport :=
  r.components.filter fun c => !c.isSuccess

/-- The binds that were skipped. -/
def skipped (r : CompileReport) : List SkippedBinding :=
  r.components.flatMap ComponentReport.skipped

/-- Says whether nothing failed, was skipped or is left over. -/
def isClean (r : CompileReport) : Bool :=
  r.components.all (fun c => c.isSuccess && c.skipped.isEmpty) && r.unplaced.isEmpty

end CompileReport

/-- A compiled diagram. -/
structure CompiledDiagram where
  ontologies : List CompiledOntology
  report : CompileReport
deriving Repr, DecidableEq

/-- The first ontology of a name. -/
def CompiledDiagram.ontology? (d : CompiledDiagram) (name : String) : Option CompiledOntology :=
  d.ontologies.find? fun o => o.name == name

/-! ## JSON -/

/-- Reads an ontology. -/
def CompiledOntology.ofJson? (j : Json) : Option CompiledOntology := do
  let f ← Json.fields? ["root_id", "name", "relationships"] j
  let rootId ← f.required 0 Json.string?
  let name ← f.required 1 Json.string?
  let relationships ← f.required 2 Row.tableOfJson?
  pure ⟨rootId, name, relationships⟩

/-- Reads a skipped bind. -/
def SkippedBinding.ofJson? (j : Json) : Option SkippedBinding := do
  let f ← Json.fields? ["rel_id", "parent_id", "child_id", "reason"] j
  let relId ← f.required 0 Json.string?
  let parentId ← f.required 1 Json.string?
  let childId ← f.required 2 Json.string?
  let reason ← f.required 3 Json.string?
  pure ⟨relId, parentId, childId, reason⟩

/-- Reads the report on a component. -/
def ComponentReport.ofJson? (j : Json) : Option ComponentReport := do
  let f ← Json.fields? ["root_id", "operations", "skipped", "unreached", "error"] j
  let rootId ← f.omissible 0 none (Json.optional? Json.string?)
  let operations ← f.required 1 Json.count?
  let skipped ← f.withDefault 2 [] (Json.list? SkippedBinding.ofJson?)
  let unreached ← f.withDefault 3 [] (Json.list? Json.string?)
  let error ← f.withDefault 4 none (Json.optional? Json.string?)
  pure ⟨rootId, operations, skipped, unreached, error⟩

/-- Reads a report. -/
def CompileReport.ofJson? (j : Json) : Option CompileReport := do
  let f ← Json.fields? ["components", "isolates", "unplaced"] j
  let components ← f.required 0 (Json.list? ComponentReport.ofJson?)
  let isolates ← f.withDefault 1 [] (Json.list? Json.string?)
  let unplaced ← f.withDefault 2 [] (Json.list? Json.string?)
  pure ⟨components, isolates, unplaced⟩

/-- Reads a compiled diagram. -/
def CompiledDiagram.ofJson? (j : Json) : Option CompiledDiagram := do
  let f ← Json.fields? ["ontologies", "report"] j
  let ontologies ← f.required 0 (Json.list? CompiledOntology.ofJson?)
  let report ← f.required 1 CompileReport.ofJson?
  pure ⟨ontologies, report⟩

/-- Writes an ontology. -/
def CompiledOntology.toJson (o : CompiledOntology) : Json :=
  .object [("root_id", .string o.rootId), ("name", .string o.name),
    ("relationships", Row.tableToJson o.relationships)]

/-- Writes a skipped bind. -/
def SkippedBinding.toJson (s : SkippedBinding) : Json :=
  .object [("rel_id", .string s.relId), ("parent_id", .string s.parentId),
    ("child_id", .string s.childId), ("reason", .string s.reason)]

/-- Writes the report on a component. -/
def ComponentReport.toJson (c : ComponentReport) : Json :=
  .object [("root_id", .optional c.rootId), ("operations", .count c.operations),
    ("skipped", .array (c.skipped.map SkippedBinding.toJson)), ("unreached", .strings c.unreached),
    ("error", .optional c.error)]

/-- Writes a report. -/
def CompileReport.toJson (r : CompileReport) : Json :=
  .object [("components", .array (r.components.map ComponentReport.toJson)),
    ("isolates", .strings r.isolates), ("unplaced", .strings r.unplaced)]

/-- Writes a compiled diagram. -/
def CompiledDiagram.toJson (d : CompiledDiagram) : Json :=
  .object [("ontologies", .array (d.ontologies.map CompiledOntology.toJson)),
    ("report", d.report.toJson)]

end Ontogram
