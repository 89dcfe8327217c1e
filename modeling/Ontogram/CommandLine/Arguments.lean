/-!
# Command lines

A command line names a command, its operand and its options. Words are read from left to right, and
reading ends at the first word that asks for the help or the version or that does not fit.

An option takes its value from the same word behind `=` or from the next word, which must not look
like an option. A word of a dash and letters holds several short flags. Behind `--` every word is an
operand. Nothing may be given twice except `--verbose`, and a path is never empty.

* `readWords_verbose` — a verbosity flag between other words changes nothing.
-/

namespace Ontogram.CommandLine

/-- The commands by name. -/
inductive Verb where
  | compile
  | plan
  | template
deriving Repr, DecidableEq

namespace Verb

/-- The command of a name. -/
def ofName? (name : String) : Option Verb :=
  if name = "compile" then some .compile
  else if name = "plan" then some .plan
  else if name = "template" then some .template
  else none

/-- The options that take a path. -/
def pathOptions : Verb → List String
  | .compile => ["config", "templates", "out"]
  | .plan => ["config"]
  | .template => ["config", "templates"]

/-- Says whether the command can print JSON. -/
def hasJson : Verb → Bool
  | .compile | .plan => true
  | .template => false

/-- Says whether the operand is a path. The other operand is the name of a template. -/
def takesPath : Verb → Bool
  | .compile | .plan => true
  | .template => false

end Verb

/-- A command with what it needs. -/
inductive Command where
  | compile (diagram : String) (config? templates? out? : Option String) (json : Bool)
  | plan (diagram : String) (config? : Option String) (json : Bool)
  | template (name : String) (config? templates? : Option String)
deriving Repr, DecidableEq

/-- What a command line asks for. -/
inductive Request where
  | run (command : Command)
  | help
  | version
  /-- The command line does not fit. -/
  | malformed
deriving Repr, DecidableEq

/-! ## Words -/

/-- A word of a command line. -/
inductive Word where
  /-- The end of the options. -/
  | endOfOptions
  /-- A long option or flag, and what stands behind `=`. -/
  | long (name : String) (value? : Option String)
  /-- Short flags. -/
  | short (flags : List Char)
  | operand (text : String)
deriving Repr, DecidableEq

/-- A long option or flag, cut at the first `=`. -/
def longWord (cs : List Char) : Word :=
  let name := String.ofList (cs.takeWhile (· != '='))
  match cs.dropWhile (· != '=') with
  | [] => .long name none
  | _ :: value => .long name (some (String.ofList value))

/-- The kind of a word. A lone dash is an operand. -/
def Word.ofText (text : String) : Word :=
  match text.toList with
  | ['-', '-'] => .endOfOptions
  | '-' :: '-' :: cs => longWord cs
  | ['-'] => .operand text
  | '-' :: cs => .short cs
  | _ => .operand text

/-! ## What a command is given -/

/-- What was read of the operand and the options of a command. -/
structure Given where
  operand? : Option String
  paths : List (String × String)
  json : Bool
deriving Repr, DecidableEq

/-- What was read before the first word. -/
def Given.nothing : Given :=
  ⟨none, [], false⟩

/-- The path of an option. -/
def Given.path? (g : Given) (name : String) : Option String :=
  (g.paths.find? fun p => p.1 == name).map Prod.snd

/-- Takes an operand. -/
def Given.addOperand (v : Verb) (g : Given) (text : String) : Option Given :=
  if g.operand?.isSome || (v.takesPath && text.isEmpty) then none
  else some { g with operand? := some text }

/-- Takes the path of an option. -/
def Given.addPath (g : Given) (name path : String) : Option Given :=
  if (g.path? name).isSome || path.isEmpty then none
  else some { g with paths := g.paths ++ [(name, path)] }

/-- Takes the flag for JSON. -/
def Given.addJson (g : Given) : Option Given :=
  if g.json then none else some { g with json := true }

/-- The command that was given, if its operand was. -/
def Given.command? (v : Verb) (g : Given) : Option Command :=
  g.operand?.map fun operand =>
    match v with
    | .compile =>
      .compile operand (g.path? "config") (g.path? "templates") (g.path? "out") g.json
    | .plan => .plan operand (g.path? "config") g.json
    | .template => .template operand (g.path? "config") (g.path? "templates")

/-! ## Reading -/

/-- Where reading ended before the last word. -/
inductive Stop where
  | help
  | version
  | malformed
deriving Repr, DecidableEq

/-- The request of an early end. -/
def Stop.request : Stop → Request
  | .help => .help
  | .version => .version
  | .malformed => .malformed

/-- Takes what fits. -/
def orMalformed {α : Type} : Option α → Except Stop α
  | some a => .ok a
  | none => .error .malformed

/-- Reads short flags. The version is asked for in front of a command only. -/
def readShort (versionFlag : Bool) : List Char → Option Stop
  | [] => none
  | 'v' :: cs => readShort versionFlag cs
  | 'h' :: _ => some .help
  | 'V' :: _ => some (if versionFlag then .version else .malformed)
  | _ :: _ => some .malformed

/-- Reads the words behind `--`. -/
def readOperands (v : Verb) : List String → Given → Except Stop Given
  | [], g => .ok g
  | text :: rest, g =>
    match g.addOperand v text with
    | some g => readOperands v rest g
    | none => .error .malformed

/-- Takes a long flag. -/
def readFlag (v : Verb) (name : String) (g : Given) : Except Stop Given :=
  if name = "verbose" then .ok g
  else if name = "help" then .error .help
  else if name = "json" && v.hasJson then orMalformed g.addJson
  else .error .malformed

/-- Takes a word that needs no other. None if it does. -/
def readWord? (v : Verb) (word : Word) (g : Given) : Option (Except Stop Given) :=
  match word with
  | .endOfOptions => none
  | .operand text => some (orMalformed (g.addOperand v text))
  | .short flags =>
    match readShort false flags with
    | none => some (.ok g)
    | some stop => some (.error stop)
  | .long name value? =>
    if v.pathOptions.contains name then value?.map fun path => orMalformed (g.addPath name path)
    else
      match value? with
      | none => some (readFlag v name g)
      | some _ => some (.error .malformed)

/-- Reads the words of a command. -/
def readWords (v : Verb) : List String → Given → Except Stop Given
  | [], g => .ok g
  | text :: rest, g =>
    match readWord? v (.ofText text) g with
    | some (.ok g) => readWords v rest g
    | some (.error stop) => .error stop
    | none =>
      match Word.ofText text, rest with
      -- An option that takes its path from the next word.
      | .long name _, next :: rest =>
        match Word.ofText next with
        | .operand path =>
          match g.addPath name path with
          | some g => readWords v rest g
          | none => .error .malformed
        | _ => .error .malformed
      | .endOfOptions, rest => readOperands v rest g
      | _, _ => .error .malformed

/-- Reads a command behind its name. -/
def readCommand (v : Verb) (words : List String) : Request :=
  match readWords v words .nothing with
  | .error stop => stop.request
  | .ok g =>
    match g.command? v with
    | some command => .run command
    | none => .malformed

/-- Reads what stands behind the command `help`. -/
def readHelp : List String → Request
  | [] => .help
  | [name] => if (Verb.ofName? name).isSome || name = "help" then .help else .malformed
  | _ => .malformed

/-- Reads a command line. -/
def read : List String → Request
  | [] => .malformed
  | text :: rest =>
    match Word.ofText text with
    | .operand name =>
      match Verb.ofName? name with
      | some v => readCommand v rest
      | none => if name = "help" then readHelp rest else .malformed
    | .short flags =>
      match readShort true flags with
      | none => read rest
      | some stop => stop.request
    | .long "verbose" none => read rest
    | .long "help" none => .help
    | .long "version" none => .version
    | _ => .malformed

/-! ## Verbosity -/

/-- **A verbosity flag between other words changes nothing.** -/
theorem readWords_verbose (v : Verb) (rest : List String) (g : Given) :
    readWords v ("--verbose" :: rest) g = readWords v rest g := by
  cases v <;> rfl

end Ontogram.CommandLine
