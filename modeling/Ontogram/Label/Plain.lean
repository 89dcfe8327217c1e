import Ontogram.Text.Blank
import Ontogram.Markup.Fragment

/-!
# Plain text of a label

Labels of a diagram may hold markup. A label with neither `<` nor `&` is its own text; any other is
read as a markup fragment. Either way the blanks around the text are dropped.
-/

namespace Ontogram.Label

open Ontogram.Text

/-- Says whether a text could hold markup. -/
def hasMarkup (cs : List Char) : Bool :=
  cs.any fun c => c == '<' || c == '&'

/-- The text of a markup fragment without the blanks around it. -/
def plainOfMarkup (cs : List Char) : List Char :=
  trimChars (Markup.fragmentText cs)

/-- The visible text of a label, without the blanks around it. -/
def plain (label : String) : String :=
  let cs := label.toList
  String.ofList (if hasMarkup cs then plainOfMarkup cs else trimChars cs)

end Ontogram.Label
