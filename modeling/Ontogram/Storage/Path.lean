import Ontogram.Text.Blank

/-!
# Paths

Paths as texts, with `/` between the segments. A path that starts with `/` is absolute. Joining is
textual: nothing is resolved or cleaned up.
-/

namespace Ontogram.Storage.Path

/-- Cuts a path at every `/`. -/
def segmentsOf : List Char → List (List Char)
  | [] => [[]]
  | c :: cs =>
    if c = '/' then [] :: segmentsOf cs
    else
      match segmentsOf cs with
      | [] => [[c]]
      | s :: ss => (c :: s) :: ss

/-- The segments of a path, empty ones included. -/
def segments (path : String) : List String :=
  (segmentsOf path.toList).map String.ofList

/-- Says whether a path is absolute. -/
def isAbsolute (path : String) : Bool :=
  path.toList.head? == some '/'

/-- A path below another. An absolute path stays what it is. -/
def join (base path : String) : String :=
  if isAbsolute path || base.isEmpty then path
  else if base.toList.getLast? = some '/' then base ++ path
  else base ++ "/" ++ path

/-- A segment that leads nowhere. -/
def isIdle (segment : String) : Bool :=
  segment = "" || segment = "."

/-- The segments without the idle ones at the end. -/
def withoutIdle (segments : List String) : List String :=
  (segments.reverse.dropWhile isIdle).reverse

/-- The segments without the idle ones at the end. The first one stays. -/
def dropIdle (segments : List String) : List String :=
  match segments with
  | [] => []
  | s :: ss => s :: withoutIdle ss

/-- Says whether the last segment that is not empty is `.`. -/
def endsInDot (path : String) : Bool :=
  ((segments path).reverse.dropWhile (· == "")).head? == some "."

/-- Says whether a path has too many bytes to lead anywhere. -/
def isTooLong (path : String) : Bool :=
  4096 ≤ path.utf8ByteSize

/-- The directory that the last segment of a path stands in. None for the empty path and for the
root. -/
def parent? (path : String) : Option String :=
  match dropIdle (segments path) with
  | [] => none
  | [s] => if s.isEmpty then none else some ""
  | ss =>
    match dropIdle ss.dropLast with
    | [""] => some "/"
    | ss => some (String.intercalate "/" ss)

/-- Cuts a file name at its last dot. A dot at the start cuts nothing. -/
def cutAtDot (name : List Char) : Option (List Char × List Char) :=
  let after := (name.reverse.takeWhile (· != '.')).reverse
  let before := (name.reverse.dropWhile (· != '.')).reverse.dropLast
  if before.isEmpty then none else some (before, after)

/-- The part of a file name before an extension, if it has that extension. -/
def stemBefore? (extension name : String) : Option String :=
  match cutAtDot name.toList with
  | some (before, after) =>
    if after = extension.toList && name ≠ ".." then some (String.ofList before) else none
  | none => none

end Ontogram.Storage.Path
