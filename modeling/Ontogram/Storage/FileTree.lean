import Ontogram.Storage.Path
import Ontogram.Text.Ascending

/-!
# File trees

Files and directories as values. An entry is addressed by the names on the way to it from the root
of all paths. A path text is resolved step by step: every step but the last needs a directory, and
`..` goes back to the directory above, which for the root is the root. Relative paths start from
the working directory.
-/

namespace Ontogram.Storage

/-- Files and directories. -/
structure FileTree where
  /-- The address of the working directory. -/
  here : List String
  /-- The addresses of the files with their texts. -/
  files : List (List String × String)
  /-- The addresses of the directories. The root needs no entry. -/
  dirs : List (List String)
deriving Repr

namespace FileTree

/-- The tree without files. -/
def empty (here : List String) : FileTree :=
  ⟨here, [], []⟩

/-! ## By addresses -/

/-- Says whether there is a directory. -/
def isDir (t : FileTree) (path : List String) : Bool :=
  path.isEmpty || t.dirs.contains path

/-- The text of a file. -/
def text? (t : FileTree) (path : List String) : Option String :=
  (t.files.find? fun f => f.1 == path).map Prod.snd

/-- Says whether there is a file. -/
def isFile (t : FileTree) (path : List String) : Bool :=
  (t.text? path).isSome

/-- Adds a directory. -/
def addDir (t : FileTree) (path : List String) : FileTree :=
  if t.isDir path then t else { t with dirs := t.dirs ++ [path] }

/-- Adds a directory and all above it. -/
def addDirs (t : FileTree) (path : List String) : FileTree :=
  (List.range (path.length + 1)).foldl (fun t n => t.addDir (path.take n)) t

/-- Sets the text of a file. -/
def setText (t : FileTree) (path : List String) (text : String) : FileTree :=
  if t.isFile path then
    { t with files := t.files.map fun f => if f.1 = path then (path, text) else f }
  else { t with files := t.files ++ [(path, text)] }

/-- Removes a file. -/
def removeFile (t : FileTree) (path : List String) : FileTree :=
  { t with files := t.files.filter fun f => f.1 != path }

/-- The names in a directory, in ascending order. -/
def names (t : FileTree) (dir : List String) : List String :=
  let inDir : List String → Option String := fun path =>
    if path.length = dir.length + 1 && path.take dir.length = dir then path.getLast? else none
  Text.ascending ((t.files.map Prod.fst).filterMap inDir ++ t.dirs.filterMap inDir)

/-- The files below a directory, depth first, each directory's names in ascending order. The fuel
bounds the depth. -/
def walk (t : FileTree) : Nat → List String → List (List String)
  | 0, _ => []
  | depth + 1, dir =>
    (t.names dir).flatMap fun name =>
      let path := dir ++ [name]
      if t.isDir path then walk t depth path else [path]

/-- The files below a directory, depth first, each directory's names in ascending order. -/
def filesBelow (t : FileTree) (dir : List String) : List (List String) :=
  t.walk (t.dirs.length + 1) dir

/-- The addresses of all directories below a directory. -/
def dirsBelow (t : FileTree) (dir : List String) : List (List String) :=
  t.dirs.filter fun path => dir.length < path.length && path.take dir.length = dir

/-! ## By path texts -/

/-- Says whether a name fits into a directory: at most 255 bytes. -/
def fits (name : String) : Bool :=
  name.utf8ByteSize ≤ 255

/-- Follows steps from a directory. The entry at the end need not exist. -/
def follow (t : FileTree) : List String → List String → Option (List String)
  | here, [] => some here
  | here, s :: ss =>
    if !t.isDir here then none
    else if Path.isIdle s then t.follow here ss
    else if s = ".." then t.follow here.dropLast ss
    else if fits s then t.follow (here ++ [s]) ss
    else none

/-- The steps from the root that a path text stands for. None for a text that is no path: the empty
one, one with a NUL, and one that is too long. -/
def steps? (t : FileTree) (path : String) : Option (List String) :=
  if path.isEmpty || path.toList.contains '\x00' || Path.isTooLong path then none
  else if Path.isAbsolute path then some (Path.segments path)
  else some (t.here ++ Path.segments path)

/-- Where a path text leads. -/
def locate? (t : FileTree) (path : String) : Option (List String) :=
  (t.steps? path).bind fun steps => t.follow [] steps

/-- Says whether a path text leads to a directory. -/
def isDirAt (t : FileTree) (path : String) : Bool :=
  (t.locate? path).any t.isDir

/-- Says whether a path text leads to a file or a directory. -/
def existsAt (t : FileTree) (path : String) : Bool :=
  (t.locate? path).any fun p => t.isDir p || t.isFile p

/-- The text of the file that a path text leads to. -/
def read? (t : FileTree) (path : String) : Option String :=
  (t.locate? path).bind t.text?

/-- Creates the directories along steps, up to a file that is in the way or a name that does not
fit. Says whether the last one is there now. -/
def createAlong (t : FileTree) : List String → List String → FileTree × Bool
  | _, [] => (t, true)
  | here, s :: ss =>
    if Path.isIdle s then t.createAlong here ss
    else if s = ".." then t.createAlong here.dropLast ss
    else
      let path := here ++ [s]
      if t.isFile path || !fits s then (t, false) else (t.addDir path).createAlong path ss

/-- Creates a directory and all above it, as far as that is possible. Says whether the directory is
there now. No directory is created under the name `.`: a path that ends in it leads to a directory
that must be there, and only those above that one are created. -/
def createDirs (t : FileTree) (path : String) : FileTree × Bool :=
  if path.isEmpty then (t, true)
  else
    match t.steps? path with
    | none => (t, false)
    | some steps =>
      if Path.endsInDot path then
        match t.createAlong [] (Path.withoutIdle steps).dropLast with
        | (t, true) => (t, t.isDirAt path)
        | stopped => stopped
      else t.createAlong [] steps

/-! ### Directories are no files -/

@[simp] theorem addDir_files (t : FileTree) (path : List String) :
    (t.addDir path).files = t.files := by
  unfold addDir
  split <;> rfl

/-- Creating directories touches no file, however far it comes. -/
theorem createAlong_files (t : FileTree) (here steps : List String) :
    (t.createAlong here steps).1.files = t.files := by
  induction steps generalizing t here with
  | nil => rfl
  | cons s ss ih =>
    unfold createAlong
    split
    · exact ih t here
    · split
      · exact ih t here.dropLast
      · dsimp only
        split
        · rfl
        · rw [ih, addDir_files]

/-- Whether or not a directory can be created, the files stay what they are. -/
theorem createDirs_files (t : FileTree) (path : String) :
    (t.createDirs path).1.files = t.files := by
  unfold createDirs
  split
  · rfl
  · split
    · rfl
    · next steps _ =>
      have along := t.createAlong_files [] (Path.withoutIdle steps).dropLast
      split
      · split
        · next h => rw [h] at along; exact along
        · exact along
      · exact t.createAlong_files [] steps

/-! ### Writing -/

/-- Writes a file into a directory that exists. None if that is not possible. -/
def write? (t : FileTree) (path text : String) : Option FileTree :=
  match t.locate? path with
  | some p => if t.isDir p then none else some (t.setText p text)
  | none => none

end FileTree

end Ontogram.Storage
