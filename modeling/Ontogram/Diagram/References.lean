import Ontogram.TermGraph.Basic

/-!
# Reference templates

The templates that operations take from are the same throughout a compilation. A template is loaded
at its first use and kept; one that cannot be loaded is not kept, so each use of it tries again.
-/

namespace Ontogram

/-- The templates that were loaded, by name. -/
structure References where
  loaded : List (String × TermGraph)

namespace References

/-- No template is loaded yet. -/
def empty : References :=
  ⟨[]⟩

/-- The loaded template of a name. -/
def get? (r : References) (name : String) : Option TermGraph :=
  (r.loaded.find? fun t => t.1 == name).map Prod.snd

/-- Gives the template of a name, and keeps it if it had to be loaded. -/
def fetch (library : Library) (r : References) (name : String) :
    References × Except TemplateError TermGraph :=
  match r.get? name with
  | some graph => (r, .ok graph)
  | none =>
    match TermGraph.load library name with
    | .ok graph => (⟨r.loaded ++ [(name, graph)]⟩, .ok graph)
    | .error cause => (r, .error cause)

end References

end Ontogram
