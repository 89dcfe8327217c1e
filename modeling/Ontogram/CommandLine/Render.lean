import Ontogram.Diagram.Compile
import Ontogram.TermGraph.Basic

/-!
# Texts for the terminal

The report on a compilation, a plan and a template as lines of text. Columns are padded with spaces
to a number of characters; what is wider stays as it is.
-/

namespace Ontogram.CommandLine

/-- Lines of text, each with its line break. -/
def unlines (lines : List String) : String :=
  String.join (lines.map fun line => line ++ "\n")

/-- The spaces that a text lacks of a width. -/
def padding (width : Nat) (text : String) : String :=
  String.ofList (List.replicate (width - text.length) ' ')

/-- A text at the left of a column. -/
def alignLeft (width : Nat) (text : String) : String :=
  text ++ padding width text

/-- A text at the right of a column. -/
def alignRight (width : Nat) (text : String) : String :=
  padding width text ++ text

/-- A list of texts on one line. -/
def commaList (texts : List String) : String :=
  String.intercalate ", " texts

/-- A line that is shown only with something to show. -/
def lineUnless (absent : Bool) (line : String) : List String :=
  if absent then [] else [line]

/-! ## Reports -/

/-- The line about a skipped bind. -/
def skippedLine (s : SkippedBinding) : String :=
  s!"  skipped bind {s.parentId} → {s.childId}: {s.reason}"

/-- The line about what became of a component. -/
def outcomeLine (c : ComponentReport) : String :=
  let root := c.rootId.getD "?"
  match c.error with
  | none => s!"ok component {root} ({c.operations} operations)"
  | some error => s!"error component {root}: {error}"

/-- The lines about a component. -/
def componentLines (c : ComponentReport) : List String :=
  outcomeLine c :: c.skipped.map skippedLine
    ++ lineUnless c.unreached.isEmpty
      s!"  info: {c.unreached.length} edges unreachable from the root"

/-- The lines of a report and of the files that were written. -/
def reportLines (r : CompileReport) (written : List String) : List String :=
  r.components.flatMap componentLines
    ++ lineUnless r.unplaced.isEmpty ("info: unplaced relationships: " ++ commaList r.unplaced)
    ++ written.map fun path => "wrote " ++ path

/-! ## Plans -/

/-- The end of a line about a relation of a plan. -/
def relationText (rel parentId childId relId : String) : String :=
  s!"{alignLeft 11 rel} {parentId} → {childId}  [" ++ relId ++ "]"

/-- The line of an operation at a position. -/
def operationLine (op : PlannedOperation) (i : Nat) : String :=
  s!"  {alignRight 3 (toString (i + 1))}. "
    ++ relationText op.rel op.parentId op.childId op.relId

/-- The line of a secondary relation. -/
def secondaryLine (r : SecondaryRelation) : String :=
  "   +   " ++ relationText r.rel r.parentId r.childId r.relId

/-- The lines of a component at a position. -/
def planLines (c : ComponentPlan) (i : Nat) : List String :=
  let root := c.rootId.getD "<no root>"
  s!"component {i} root {root} ({c.nodes.length} nodes)" ::
    (c.operations.zipIdx.map fun (op, i) => operationLine op i)
    ++ c.secondary.map secondaryLine

/-- The text of a plan. -/
def planText (p : ExecutionPlan) : String :=
  unlines ((p.components.zipIdx.flatMap fun (c, i) => planLines c i)
    ++ lineUnless p.isolates.isEmpty ("isolates: " ++ commaList p.isolates))

/-! ## Templates -/

/-- The line of a term. -/
def termLine (t : Term) : String :=
  let kind := alignLeft 5 (if t.isRank then "rank" else "term")
  match t.termType with
  | some termType => s!"  {kind} {t.label}  : {termType}"
  | none => s!"  {kind} {t.label}"

/-- The line of a row. -/
def rowLine (r : Row) : String :=
  let arrow := if r.isRank then "⇒" else "→"
  s!"  {r.parent} {arrow} {r.child}  ({r.rel})"

/-- The text of a template and its file. -/
def templateText (name : String) (path? : Option String) (g : TermGraph) : String :=
  unlines (s!"template {name} ({g.size} terms, {g.arcCount} relationships)" ::
    path?.toList.map ("  " ++ ·)
    ++ g.termList.map termLine ++ g.rows.map rowLine)

end Ontogram.CommandLine
