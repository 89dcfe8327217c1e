import Ontogram.CommandLine.Arguments
import Ontogram.CommandLine.Render
import Ontogram.Storage.Output
import Ontogram.Storage.Project
import Ontogram.Storage.TemplateDirectory

/-!
# Running a command

What a command line does to the files, and what it prints. The project file is the one that
`--config` names, which must be there, or the one of the standard name, which may be missing. Its
directories give way to those of the command line. The first failure ends the run; a compilation
that ends with failed components has written everything else.
-/

namespace Ontogram.CommandLine

open Ontogram.Storage

/-- Why a command fails. -/
inductive RunError where
  | storage (failure : Failure)
  | template (error : TemplateError)
  /-- Some components of a diagram gave no ontology. -/
  | components (failed total : Nat)
deriving Repr, DecidableEq

/-- The message of an error. -/
def RunError.message : RunError → String
  | .storage failure => failure.message
  | .template error => error.message
  | .components failed total => s!"{failed} of {total} components failed"

/-- The cause behind an error. -/
def RunError.cause? : RunError → Option String
  | .storage failure => failure.cause?
  | .template (.unreadable _) => some "the file cannot be read"
  | _ => none

/-- The text of an error for the terminal. -/
def RunError.text (e : RunError) : String :=
  let cause :=
    match e.cause? with
    | some cause => "\n\nCaused by:\n    " ++ cause
    | none => ""
  "Error: " ++ e.message ++ cause ++ "\n"

/-- What a run leaves behind. -/
structure Transcript where
  /-- The exit status: 0 for success, 1 for a failure, 2 for a command line that does not fit. -/
  status : Nat
  stdout : String
  stderr : String
  /-- The files afterwards. -/
  tree : FileTree

namespace Transcript

/-- A run that prints a text. -/
def print (tree : FileTree) (text : String) : Transcript :=
  ⟨0, text, "", tree⟩

/-- The transcript with an error at its end. -/
def fail (t : Transcript) (e : RunError) : Transcript :=
  { t with status := 1, stderr := t.stderr ++ e.text }

/-- A run that fails before it prints anything. -/
def failed (tree : FileTree) (e : RunError) : Transcript :=
  (print tree "").fail e

end Transcript

/-! ## Commands -/

/-- The project of a command. -/
def loadProject (tree : FileTree) (config? : Option String) : Except RunError Project :=
  let project :=
    match config? with
    | some path => Project.load tree path
    | none => Project.loadOrStandard tree Project.fileName
  project.mapError .storage

/-- The diagram of a command. -/
def loadDrawing (tree : FileTree) (path : String) : Except RunError Drawing :=
  (readDrawing tree path).mapError .storage

/-- The templates of a command. -/
def openTemplates (tree : FileTree) (path : String) : Except RunError TemplateDirectory :=
  (TemplateDirectory.load tree path).mapError .storage

/-- The error of a compilation with failed components. -/
def componentsError? (r : CompileReport) : Option RunError :=
  if r.failures.isEmpty then none
  else some (.components r.failures.length r.components.length)

/-- Shows a compiled diagram: prints it, or writes its files and reports on them. -/
def showCompiled (tree : FileTree) (outputDir : String) (json : Bool) (d : CompiledDiagram) :
    Transcript :=
  if json then .print tree (d.toJson.pretty ++ "\n")
  else
    match OutputDirectory.write ⟨outputDir⟩ d tree with
    | (tree, .error failure) => .failed tree (.storage failure)
    | (tree, .ok written) => ⟨0, "", unlines (reportLines d.report written), tree⟩

/-- Compiles a diagram. -/
def runCompile (tree : FileTree) (ids : IdSource) (diagram : String)
    (config? templates? out? : Option String) (json : Bool) : Except RunError Transcript := do
  let project ← loadProject tree config?
  let drawing ← loadDrawing tree diagram
  let templates ← openTemplates tree (templates?.getD project.templateDir)
  let d := compile (templates.library tree) project.settings drawing ids
  let shown := showCompiled tree (out?.getD project.outputDir) json d
  match componentsError? d.report with
  | some error => pure (if shown.status = 0 then shown.fail error else shown)
  | none => pure shown

/-- Shows the plan of a diagram. -/
def runPlan (tree : FileTree) (ids : IdSource) (diagram : String) (config? : Option String)
    (json : Bool) : Except RunError Transcript := do
  let project ← loadProject tree config?
  let drawing ← loadDrawing tree diagram
  let plan := ExecutionPlan.ofDrawing drawing project.settings ids
  pure (.print tree (if json then plan.toJson.pretty ++ "\n" else planText plan))

/-- Shows a template. -/
def runTemplate (tree : FileTree) (name : String) (config? templates? : Option String) :
    Except RunError Transcript := do
  let project ← loadProject tree config?
  let templates ← openTemplates tree (templates?.getD project.templateDir)
  let g ← (TermGraph.load (templates.library tree) name).mapError .template
  pure (.print tree (templateText name (templates.pathOf? name) g))

/-- Runs a command. -/
def runCommand (tree : FileTree) (ids : IdSource) : Command → Except RunError Transcript
  | .compile diagram config? templates? out? json =>
    runCompile tree ids diagram config? templates? out? json
  | .plan diagram config? json => runPlan tree ids diagram config? json
  | .template name config? templates? => runTemplate tree name config? templates?

/-! ## Command lines -/

/-- The text of the version. -/
def versionText : String := "ontoweave 0.1.0\n"

/-- The text of the help. -/
def helpText : String :=
  unlines
    ["Compile relationship diagrams into ontology graphs",
     "",
     "Usage: ontoweave [OPTIONS] <COMMAND>",
     "",
     "Commands:",
     "  compile   Compile a diagram and write one ontology per component",
     "  plan      Show the components and operation order of a diagram",
     "  template  Print a template's relationships and derived term types",
     "  help      Print this message",
     "",
     "Options:",
     "  -v, --verbose...  Increase log verbosity (-v debug, -vv trace)",
     "  -h, --help        Print help",
     "  -V, --version     Print version"]

/-- Runs a command line on files. The ids are for binds that were not drawn. -/
def run (tree : FileTree) (ids : IdSource) (words : List String) : Transcript :=
  match read words with
  | .help => .print tree helpText
  | .version => .print tree versionText
  | .malformed => ⟨2, "", helpText, tree⟩
  | .run command =>
    match runCommand tree ids command with
    | .ok t => t
    | .error e => .failed tree e

end Ontogram.CommandLine
