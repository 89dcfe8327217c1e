import Ontogram.Text.Dictionary

/-!
# The term registry

Which term each template variable stands for. The registry is a bijection between the registered
variables (keys) and their terms (values), kept as two dictionaries, one for each direction. No
change touches one of them alone.

`set` is the only change: it releases the old value of the key and the other key that held the
value. A rename of a term re-points the key of the old term.
-/

namespace Ontogram

open Text (Dictionary)

/-- What can go wrong when a registry is asked. -/
inductive RegistryError where
  /-- The variable is no key. -/
  | unresolvedVariable (key : String)
  /-- The term is no value. -/
  | notFound (value : String)
deriving Repr, DecidableEq

/-- The text of a registry error. -/
def RegistryError.message : RegistryError → String
  | .unresolvedVariable key => s!"template variable `{key}` is not registered"
  | .notFound value => s!"no template variable resolves to `{value}`"

/-- Template variables and the terms they stand for, in both directions. -/
structure Registry where
  /-- The term of each variable. -/
  forward : Dictionary
  /-- The variable of each term. -/
  inverse : Dictionary
deriving Repr, DecidableEq

namespace Registry

/-- The registry without entries. -/
def empty : Registry :=
  ⟨.empty, .empty⟩

/-- The variables with their terms, in ascending order of the variables. -/
def entries (r : Registry) : List (String × String) :=
  r.forward.entries

/-- Takes out a key with its value. -/
def releaseKey (r : Registry) (key : String) : Registry :=
  match r.forward.get? key with
  | some value => ⟨r.forward.erase key, r.inverse.erase value⟩
  | none => r

/-- Takes out a value with its key. -/
def releaseValue (r : Registry) (value : String) : Registry :=
  match r.inverse.get? value with
  | some key => ⟨r.forward.erase key, r.inverse.erase value⟩
  | none => r

/-- Puts in a key and its value. -/
def insert (r : Registry) (key value : String) : Registry :=
  ⟨r.forward.insert key value, r.inverse.insert value key⟩

/-- Makes `key` stand for `value`. The former value of the key is released, and so is any other key
that held the value. -/
def set (r : Registry) (key value : String) : Registry :=
  ((r.releaseKey key).releaseValue value).insert key value

/-- The registry in which every variable of the list stands for itself. -/
def identity (keys : List String) : Registry :=
  keys.foldl (fun r key => r.set key key) empty

/-- The term a variable stands for. -/
def get? (r : Registry) (key : String) : Option String :=
  r.forward.get? key

/-- The variable that stands for a term. -/
def keyOf? (r : Registry) (value : String) : Option String :=
  r.inverse.get? value

/-- The term a variable stands for, or the reason why there is none. -/
def resolve (r : Registry) (key : String) : Except RegistryError String :=
  match r.get? key with
  | some value => .ok value
  | none => .error (.unresolvedVariable key)

/-- The variable that stands for a term, or the reason why there is none. -/
def keyOf (r : Registry) (value : String) : Except RegistryError String :=
  match r.keyOf? value with
  | some key => .ok key
  | none => .error (.notFound value)

/-- Makes the variable that stands for `old` stand for `new`. A term that no variable stands for
becomes a key of its own. -/
def recordRename (r : Registry) (old new : String) : Registry :=
  r.set ((r.keyOf? old).getD old) new

/-- Says whether a text is a registered variable. -/
def containsKey (r : Registry) (key : String) : Bool :=
  (r.get? key).isSome

/-- Says whether a variable stands for a text. -/
def containsValue (r : Registry) (value : String) : Bool :=
  (r.keyOf? value).isSome

/-- Says whether a variable still stands for itself, that is, was not bound yet. -/
def isUnresolved (r : Registry) (key : String) : Bool :=
  r.get? key == some key

/-- The number of registered variables. -/
def size (r : Registry) : Nat :=
  r.forward.entries.length

end Registry

end Ontogram
