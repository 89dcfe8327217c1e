import Ontogram.Proofs.Instance.Grounded

/-!
# Parents and children through operations

What an instance is called, what it was bound into and what was bound into it is written by a bind
that succeeds, and by nothing else. The other operations change graph and registry only.

* `kin_adopt`, `kin_define`, `kin_link` — operations on one instance.
* `kin_instantiate` — an instance that was just made.
* `kin_bind` — what a bind writes down.
-/

namespace Ontogram

/-- The name of an instance, what it was bound into, and what was bound into it. -/
structure Kin where
  name : String
  parent : Option String
  children : List String
deriving DecidableEq

namespace Instance

variable {e child : Instance}

/-- The relatives of an instance. -/
def kin (e : Instance) : Kin :=
  ⟨e.name, e.parent, e.children⟩

/-! ## Operations on one instance -/

theorem kin_replace (e : Instance) (old new : String) (silent : Bool) :
    (e.replace old new silent).state.kin = e.kin := by
  unfold replace
  split
  · rfl
  · split <;> rfl

theorem kin_replaceAll (e : Instance) (renames : List (String × String)) :
    (e.replaceAll renames).state.kin = e.kin := by
  induction renames generalizing e with
  | nil => rfl
  | cons r renames ih =>
    exact Outcome.state_andThen (P := fun s => s.kin = e.kin) (kin_replace e r.1 r.2 false)
      fun s hs => (ih s).trans hs

theorem kin_define (e : Instance) (key value : String) :
    (e.define key value).state.kin = e.kin := by
  unfold define
  split
  · rfl
  · exact kin_replace e _ value false

theorem kin_adopt (e : Instance) (template : TermGraph) (model : String) :
    (e.adopt template model).state.kin = e.kin := by
  unfold adopt
  split
  · exact kin_replaceAll _ _
  · rfl

theorem kin_link (e : Instance) (target : TermGraph) (id : String) (key? : Option String)
    (kinds : RelationKinds) : (e.link target id key? kinds).state.kin = e.kin := by
  unfold link
  split
  · rfl
  · simp only
    split
    · exact kin_replace _ _ id true
    · rfl

/-! ## Making an instance -/

/-- An instance that was just made has neither parent nor children. -/
theorem kin_ofGraph {name base selfTerm : String} {graph : TermGraph}
    (h : ofGraph name base selfTerm graph = .ok e) : e.kin = ⟨name, none, []⟩ := by
  have hself : ((unbound name base selfTerm graph).replace
      (unbound name base selfTerm graph).selfLabel name false).state.kin = ⟨name, none, []⟩ :=
    kin_replace _ _ _ _
  unfold ofGraph at h
  simp only at h
  split at h
  · cases h
    exact Outcome.state_andThen (P := fun s => s.kin = ⟨name, none, []⟩) hself
      fun s hs => (kin_replaceAll s _).trans hs
  · cases h

theorem kin_instantiate {library : Library} {name base selfTerm : String}
    (h : instantiate library name base selfTerm = .ok e) : e.kin = ⟨name, none, []⟩ := by
  unfold instantiate at h
  split at h
  · cases h
  · exact kin_ofGraph h

/-! ## Binding -/

/-- **What a bind writes down.** The child had no parent, and it gets the name of this one. The
parent notes the name of the child. -/
theorem kin_bind (h : (e.bind child).error? = none) :
    child.parent = none ∧
    (e.bind child).state.1.kin =
      { e.kin with children := Text.insertAscending child.name e.children } ∧
    (e.bind child).state.2.kin = { child.kin with parent := some e.name } := by
  obtain ⟨path, graph, registry, hparent, -, -, hbind⟩ := bind_eq_done h
  rw [hbind]
  exact ⟨hparent, rfl, rfl⟩

end Instance

end Ontogram
