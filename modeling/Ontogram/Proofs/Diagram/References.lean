import Ontogram.Diagram.Compile

/-!
# Templates at hand change nothing

Every template that is kept is the one that the library gives under its name, so taking it is the
same as loading it. With such templates, operations, components and diagrams come out as if each
operation loaded its template itself.

* `References.Sound` — what holds of the templates at hand.
* `compileWith_eq_compile` — a component comes out the same.
-/

namespace Ontogram

variable {library : Library}

namespace References

/-- Every template at hand is the one of the library. -/
def Sound (library : Library) (r : References) : Prop :=
  ∀ name graph, r.get? name = some graph → TermGraph.load library name = .ok graph

theorem sound_empty (library : Library) : empty.Sound library :=
  nofun

/-- The template that was loaded last is found after the ones before it. -/
theorem get?_append (loaded : List (String × TermGraph)) (name x : String) (graph : TermGraph) :
    get? ⟨loaded ++ [(name, graph)]⟩ x =
      (get? ⟨loaded⟩ x).or (if name = x then some graph else none) := by
  unfold get?
  rw [List.find?_append, Option.map_or]
  by_cases hx : name = x <;> simp [hx]

/-- **Taking a template is loading it**, and the templates at hand stay sound. -/
theorem Sound.fetch {r : References} (h : r.Sound library) (name : String) :
    (r.fetch library name).2 = TermGraph.load library name ∧
      (r.fetch library name).1.Sound library := by
  unfold References.fetch
  split
  · next graph hg => exact ⟨(h name graph hg).symm, h⟩
  · split
    · next graph hl =>
      refine ⟨hl.symm, fun x g hx => ?_⟩
      rw [get?_append, Option.or_eq_some_iff] at hx
      rcases hx with hx | ⟨-, hx⟩
      · exact h x g hx
      · split at hx
        · next he => rw [← he, hl, Option.some.inj hx]
        · cases hx
    · next cause hl => exact ⟨hl.symm, h⟩

end References

namespace Session

open References

/-- An operation with templates at hand. -/
theorem execute_eq (settings : Settings) {s : Session} (h : s.references.Sound library)
    (op : PlannedOperation) :
    ∃ references : References, references.Sound library ∧
      execute library settings s op =
        resume references (Progress.execute library settings s.progress op) := by
  unfold execute Progress.execute
  cases op.kind with
  | adopt =>
    obtain ⟨hload, hsound⟩ := h.fetch settings.adoptTemplate
    exact ⟨_, hsound, by rw [Progress.adopt, ← hload]⟩
  | link =>
    obtain ⟨hload, hsound⟩ := h.fetch settings.linkTemplate
    exact ⟨_, hsound, by rw [Progress.link, ← hload]⟩
  | place => exact ⟨_, h, rfl⟩
  | bind => exact ⟨_, h, rfl⟩
  | define => exact ⟨_, h, rfl⟩
  | other => exact ⟨_, h, rfl⟩

/-- A run of operations with templates at hand. -/
theorem executeAll_eq (settings : Settings) (ops : List PlannedOperation) {s : Session}
    (h : s.references.Sound library) :
    ∃ references : References, references.Sound library ∧
      executeAll library settings ops s =
        resume references (Progress.executeAll library settings ops s.progress) := by
  induction ops generalizing s with
  | nil => exact ⟨s.references, h, rfl⟩
  | cons op ops ih =>
    obtain ⟨references, hsound, he⟩ := execute_eq settings h op
    unfold executeAll Progress.executeAll
    rw [he]
    cases hp : Progress.execute library settings s.progress op with
    | mk p error? =>
      cases error? with
      | none => exact ih (s := ⟨references, p⟩) hsound
      | some error => exact ⟨references, hsound, rfl⟩

end Session

/-- **A component comes out the same with templates at hand.** -/
theorem ComponentPlan.compileWith_eq_compile (settings : Settings) (c : ComponentPlan)
    {references : References} (h : references.Sound library) (w : Workshop) :
    (c.compileWith library settings references w).2 = c.compile library settings w ∧
      (c.compileWith library settings references w).1.Sound library := by
  unfold compileWith compile
  split
  · exact ⟨rfl, h⟩
  · next rootId =>
    obtain ⟨_, hsound, he⟩ := Session.executeAll_eq settings c.operations
      (s := ⟨references, ⟨w, []⟩⟩) h
    rw [he]
    exact ⟨rfl, hsound⟩

end Ontogram
