/-!
# Failures of a run

Why a run ends without its result. A failure whose cause lies with the files or their text carries
that cause besides its own message.
-/

namespace Ontogram.Storage

/-- Why a run ends without its result. -/
inductive Failure where
  | readConfig (path : String)
  | invalidConfig (path : String)
  | readDiagram (path : String)
  | invalidDiagram (path : String)
  | noTemplateDirectory (path : String)
  | walkTemplates (path : String)
  | createOutput (path : String)
  | writeFile (path : String)
deriving Repr, DecidableEq

namespace Failure

/-- The message of a failure. -/
def message : Failure → String
  | .readConfig path => s!"failed to read config {path}"
  | .invalidConfig path => s!"invalid config {path}"
  | .readDiagram path => s!"failed to read diagram {path}"
  | .invalidDiagram path => s!"invalid diagram {path}"
  | .noTemplateDirectory path => s!"template directory not found: {path}"
  | .walkTemplates path => s!"failed to walk template directory {path}"
  | .createOutput path => s!"failed to create output directory {path}"
  | .writeFile path => s!"failed to write {path}"

/-- The cause behind a failure. -/
def cause? : Failure → Option String
  | .readConfig _ | .readDiagram _ => some "the file cannot be read"
  | .invalidConfig _ | .invalidDiagram _ => some "the text is not of the expected form"
  | .noTemplateDirectory _ => none
  | .walkTemplates _ => some "the path of a directory below it is too long"
  | .createOutput _ => some "the directory cannot be created"
  | .writeFile _ => some "the file cannot be written"

end Failure

end Ontogram.Storage
