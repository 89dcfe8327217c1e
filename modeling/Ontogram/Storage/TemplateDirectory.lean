import Ontogram.Json.Parser
import Ontogram.Storage.Failure
import Ontogram.Storage.FileTree
import Ontogram.TermGraph.Basic

/-!
# Template directories

Every file with the extension `json` below a directory is a template, under the part of its name
before the extension. Of several files of one name the first one counts, depth first, each
directory's names in ascending order. Files are indexed once and read at each look-up.
-/

namespace Ontogram.Storage

/-- A directory of templates. -/
structure TemplateDirectory where
  /-- The path of the directory, as it was given. -/
  root : String
  /-- The templates with the paths of their files, by ascending name. -/
  paths : List (String × String)
deriving Repr, DecidableEq

namespace TemplateDirectory

/-- The extension of template files. -/
def extension : String := "json"

/-- The name of the template in a file, if it is one. -/
def templateName? (path : List String) : Option String :=
  path.getLast?.bind (Path.stemBefore? extension)

/-- The path text of a file below the directory. -/
def pathText (root : String) (below : List String) : String :=
  below.foldl Path.join root

/-- The path of a template among the indexed ones. -/
def lookup? (paths : List (String × String)) (name : String) : Option String :=
  (paths.find? fun p => p.1 == name).map Prod.snd

/-- Indexes a file below a directory, if it is a template. A name that is indexed keeps its file. -/
def indexFile (root : String) (dir : List String) (paths : List (String × String))
    (file : List String) : List (String × String) :=
  match templateName? file with
  | some name =>
    if (lookup? paths name).isSome then paths
    else paths ++ [(name, pathText root (file.drop dir.length))]
  | none => paths

/-- Indexes files in turn. -/
def index (root : String) (dir : List String) (files : List (List String)) :
    List (String × String) :=
  files.foldl (indexFile root dir) []

/-- The indexed templates by ascending name. -/
def byName (paths : List (String × String)) : List (String × String) :=
  (Text.ascending (paths.map Prod.fst)).filterMap fun name =>
    (lookup? paths name).map fun path => (name, path)

/-- Indexes the templates below a directory. Every directory below it is opened, so one whose path is
too long is a failure, with or without templates. A file is not opened before it is looked up. -/
def load (tree : FileTree) (root : String) : Except Failure TemplateDirectory :=
  match tree.locate? root with
  | none => .error (.noTemplateDirectory root)
  | some dir =>
    let below := fun (path : List String) => pathText root (path.drop dir.length)
    if !tree.isDir dir then .error (.noTemplateDirectory root)
    else if (tree.dirsBelow dir).any (Path.isTooLong ∘ below) then .error (.walkTemplates root)
    else .ok ⟨root, byName (index root dir (tree.filesBelow dir))⟩

/-- The names of the templates. -/
def names (d : TemplateDirectory) : List String :=
  d.paths.map Prod.fst

/-- The path of a template. -/
def pathOf? (d : TemplateDirectory) (name : String) : Option String :=
  lookup? d.paths name

/-- Says whether there is a template of a name. -/
def contains (d : TemplateDirectory) (name : String) : Bool :=
  (d.pathOf? name).isSome

/-- Reads the table of a template. -/
def rows (d : TemplateDirectory) (tree : FileTree) (name : String) :
    Except TemplateError (List Row) :=
  match d.pathOf? name with
  | none => .error (.notFound name)
  | some path =>
    match tree.read? path with
    | none => .error (.unreadable name)
    | some text =>
      match (Json.parse? text).bind Row.tableOfJson? with
      | some rows => .ok rows
      | none => .error (.noTable name)

/-- The templates of the directory as a library. -/
def library (d : TemplateDirectory) (tree : FileTree) : Library :=
  ⟨d.rows tree⟩

end TemplateDirectory

end Ontogram.Storage
