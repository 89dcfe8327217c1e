/-!
# Markers

Single characters in a label that say what kind of term it is: `:` in rank terms (`pmd:Motor`), a
final `_` in template variables (`speed_`), `*` in placeholders (`*part_`) and `~` in the labels of
containers (`~Plant`).
-/

namespace Ontogram.Label

/-- Stands between the namespace and the local name of a rank term. -/
def rankSeparator : Char := ':'

/-- Ends a template variable. -/
def variableMarker : Char := '_'

/-- Marks a stand-in of a reference template. -/
def placeholderMarker : Char := '*'

/-- Marks the label of a container. -/
def containerMarker : Char := '~'

/-- A term of the class hierarchy. -/
def isRank (label : String) : Bool :=
  label.toList.contains rankSeparator

/-- A template variable, placeholders included. -/
def isVariable (label : String) : Bool :=
  label.toList.getLast? == some variableMarker

/-- A stand-in of a reference template. -/
def isPlaceholder (label : String) : Bool :=
  label.toList.contains placeholderMarker

/-- A variable that may be scoped under the name of an instance. -/
def isFree (label : String) : Bool :=
  isVariable label && !isPlaceholder label

/-- The label of a container. -/
def isContainer (label : String) : Bool :=
  label.toList.contains containerMarker

/-- A label without its final variable marker. -/
def stem (label : String) : String :=
  if isVariable label then String.ofList label.toList.dropLast else label

/-- The name a free variable takes under a scope. -/
def scopedVariable (scope label : String) : String :=
  scope ++ " " ++ stem label

/-- A label without its container markers. -/
def withoutContainerMarkers (label : String) : String :=
  String.ofList (label.toList.filter (· != containerMarker))

end Ontogram.Label
