import Ontogram.Diagram.Report
import Ontogram.Json.Printer
import Ontogram.Storage.Failure
import Ontogram.Storage.FileTree

/-!
# Output directories

A compiled diagram is written as one table for each ontology and the report, each a file of its own
in the output directory. A file is named after its ontology; separators of paths become `_`, so that
no name leads out of the directory.
-/

namespace Ontogram.Storage

/-- The directory that compiled diagrams are written to. -/
structure OutputDirectory where
  path : String
deriving Repr, DecidableEq

namespace OutputDirectory

/-- The name of the report file. -/
def reportFile : String := "report.json"

/-- A name without separators of paths. -/
def withoutSeparators (name : String) : String :=
  String.ofList (name.toList.map fun c => if c = '/' || c = '\\' then '_' else c)

/-- The file name of an ontology without its extension. -/
def fileStem (name : String) : String :=
  let stem := withoutSeparators name
  if stem.isEmpty then "unnamed" else stem

/-- The path of the file of an ontology. -/
def pathFor (o : OutputDirectory) (ontology : CompiledOntology) : String :=
  Path.join o.path (fileStem ontology.name ++ ".json")

/-- The path of the report. -/
def reportPath (o : OutputDirectory) : String :=
  Path.join o.path reportFile

/-- The files of a compiled diagram with their texts, the report last. -/
def filesOf (o : OutputDirectory) (d : CompiledDiagram) : List (String × String) :=
  d.ontologies.map (fun ontology =>
      (o.pathFor ontology, (Row.tableToJson ontology.relationships).pretty))
    ++ [(o.reportPath, d.report.toJson.pretty)]

/-- Writes files in turn, up to the first one that cannot be written. -/
def writeAll : List (String × String) → FileTree → FileTree × Option Failure
  | [], tree => (tree, none)
  | (path, text) :: rest, tree =>
    match tree.write? path text with
    | some tree => writeAll rest tree
    | none => (tree, some (.writeFile path))

/-- Writes a compiled diagram. The result is the tree afterwards, and the paths of the files or the
failure. -/
def write (o : OutputDirectory) (d : CompiledDiagram) (tree : FileTree) :
    FileTree × Except Failure (List String) :=
  match tree.createDirs o.path with
  | (tree, false) => (tree, .error (.createOutput o.path))
  | (tree, true) =>
    match writeAll (o.filesOf d) tree with
    | (tree, some failure) => (tree, .error failure)
    | (tree, none) => (tree, .ok ((o.filesOf d).map Prod.fst))

end OutputDirectory

end Ontogram.Storage
