import Ontogram.CommandLine.Run

/-!
# The program

Takes a picture of the files that a command can touch, runs the command on the picture, and brings
the files up to date with it.
-/

namespace Ontogram

open CommandLine Storage

/-! ## What a command touches -/

/-- The files that a command reads before it knows its directories. -/
def CommandLine.Command.filePaths : Command → List String
  | .compile diagram config? _ _ _ => [config?.getD Project.fileName, diagram]
  | .plan diagram config? _ => [config?.getD Project.fileName, diagram]
  | .template _ config? _ => [config?.getD Project.fileName]

/-- The project file that a command names. -/
def CommandLine.Command.config? : Command → Option String
  | .compile _ config? _ _ _ => config?
  | .plan _ config? _ => config?
  | .template _ config? _ => config?

/-- The directories that a command works on. -/
def CommandLine.Command.directories (p : Project) : Command → List String
  | .compile _ _ templates? out? _ =>
    [templates?.getD p.templateDir, out?.getD p.outputDir]
  | .plan _ _ _ => []
  | .template _ _ templates? => [templates?.getD p.templateDir]

/-- The absolute path of an address. -/
def absolutePath (path : List String) : String :=
  "/" ++ String.intercalate "/" path

/-! ## Taking the picture -/

/-- Adds what is at an address: a directory without its content, or a text file. -/
def addEntry (tree : FileTree) (path : List String) : IO FileTree := do
  let file := System.mkFilePath [absolutePath path]
  if ← file.isDir then return tree.addDir path
  if ← file.pathExists then
    let bytes ← IO.FS.readBinFile file
    match String.fromUTF8? bytes with
    | some text => return tree.setText path text
    | none => return tree
  return tree

/-- Adds the entries along a path from a directory. The result is the tree and the end of the
path. -/
def addAlong (tree : FileTree) (dir : List String) : List String → IO (FileTree × List String)
  | [] => return (tree, dir)
  | s :: ss => do
    if s = "" || s = "." then addAlong tree dir ss
    else if s = ".." then addAlong tree dir.dropLast ss
    else
      let path := dir ++ [s]
      addAlong (← addEntry tree path) path ss

/-- Adds the entries along a path text. -/
def addPath (tree : FileTree) (path : String) : IO (FileTree × List String) :=
  match tree.steps? path with
  | some steps => addAlong tree [] steps
  | none => return (tree, [])

/-- Adds everything below a directory, down to a depth. -/
def addBelow : Nat → FileTree → List String → IO FileTree
  | 0, tree, _ => return tree
  | depth + 1, tree, dir => do
    if !tree.isDir dir then return tree
    let mut tree := tree
    for entry in ← (System.mkFilePath [absolutePath dir]).readDir do
      let path := dir ++ [entry.fileName]
      tree ← addEntry tree path
      tree ← addBelow depth tree path
    return tree

/-- How deep the picture goes below a directory. -/
def pictureDepth : Nat := 256

/-- Adds everything that a command can touch. -/
def addTouched (tree : FileTree) (command : Command) : IO FileTree := do
  let mut tree := tree
  for path in command.filePaths do
    tree := (← addPath tree path).1
  match loadProject tree command.config? with
  | .error _ => return tree
  | .ok project =>
    for path in command.directories project do
      let (along, dir) ← addPath tree path
      tree ← addBelow pictureDepth along dir
    return tree

/-- The picture for a request. -/
def takePicture (request : Request) : IO FileTree := do
  let here := ((Path.segments (toString (← IO.currentDir))).filter (· ≠ ""))
  let tree := (← addAlong (.empty here) [] here).1
  match request with
  | .run command => addTouched tree command
  | _ => return tree

/-! ## Bringing files up to date -/

/-- Makes the directories and writes the files that changed. -/
def update (before after : FileTree) : IO Unit := do
  for dir in after.dirs do
    if !before.isDir dir then IO.FS.createDirAll (System.mkFilePath [absolutePath dir])
  for (path, text) in after.files do
    if before.text? path ≠ some text then
      IO.FS.writeFile (System.mkFilePath [absolutePath path]) text

/-- Twelve random hexadecimal digits. -/
def randomHeader : IO String := do
  let mut digits := ""
  for _ in List.range 12 do
    digits := digits.push (Nat.digitChar (← IO.rand 0 15))
  return digits

end Ontogram

open Ontogram in
/-- Runs a command line. -/
def main (words : List String) : IO UInt32 := do
  let before ← takePicture (CommandLine.read words)
  let t := CommandLine.run before (.ofHeader (← randomHeader)) words
  update before t.tree
  (← IO.getStdout).putStr t.stdout
  (← IO.getStderr).putStr t.stderr
  return UInt32.ofNat t.status
