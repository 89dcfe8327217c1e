import Ontogram.Diagram.Drawing
import Ontogram.Diagram.Settings
import Ontogram.Json.Parser
import Ontogram.Storage.Failure
import Ontogram.Storage.FileTree

/-!
# Projects

A project file names the directories of templates and of output and holds the settings of the
compilation; what it leaves out is standard. Relative directories are taken from the directory of
the project file. Without a project file everything is standard.
-/

namespace Ontogram.Storage

/-- The configuration of a project. -/
structure Project where
  templateDir : String
  outputDir : String
  settings : Settings
deriving Repr, DecidableEq

namespace Project

/-- The name of the project file. -/
def fileName : String := "ontoweave.json"

/-- The project that holds when nothing is configured. -/
def standard : Project :=
  ⟨"./templates", "./ontologies", .standard⟩

/-- Reads a project. What is left out is standard. -/
def ofJson? (j : Json) : Option Project := do
  let f ← Json.fields? ["template_dir", "output_dir", "compiler"] j
  let templateDir ← f.withDefault 0 standard.templateDir Json.string?
  let outputDir ← f.withDefault 1 standard.outputDir Json.string?
  let settings ← f.withDefault 2 standard.settings Settings.ofJson?
  pure ⟨templateDir, outputDir, settings⟩

/-- The project with its relative directories taken from another directory. -/
def relativeTo (p : Project) (base : String) : Project :=
  { p with templateDir := Path.join base p.templateDir, outputDir := Path.join base p.outputDir }

/-- Loads a project file. -/
def load (tree : FileTree) (path : String) : Except Failure Project :=
  match tree.read? path with
  | none => .error (.readConfig path)
  | some text =>
    match (Json.parse? text).bind ofJson? with
    | none => .error (.invalidConfig path)
    | some p =>
      match Path.parent? path with
      | some base => .ok (p.relativeTo base)
      | none => .ok p

/-- Loads a project file if it is there. -/
def loadOrStandard (tree : FileTree) (path : String) : Except Failure Project :=
  if tree.existsAt path then load tree path else .ok standard

end Project

/-- Reads a diagram from a file. -/
def readDrawing (tree : FileTree) (path : String) : Except Failure Drawing :=
  match tree.read? path with
  | none => .error (.readDiagram path)
  | some text =>
    match (Json.parse? text).bind Drawing.ofJson? with
    | none => .error (.invalidDiagram path)
    | some drawing => .ok drawing

end Ontogram.Storage
