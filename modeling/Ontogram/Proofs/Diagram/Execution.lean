import Ontogram.Diagram.Compile
import Ontogram.Proofs.TermGraph.Grows

/-!
# Runs of operations and of stitches

A run ends at its first failure, so a run without failure has executed each of its operations. What
was skipped is never forgotten; a run that skipped nothing new has skipped none of them. Stitches
only add to the graph of the root, so what was stitched is in its table at the end.

* `Progress.executed_of_mem` — a run without failure and skips executes each operation.
* `Workshop.Stitched.exists_row` — a stitched relation has a row.
-/

namespace Ontogram

namespace Progress

variable {library : Library} {settings : Settings} {op : PlannedOperation}
  {ops : List PlannedOperation} {p q : Progress}

/-! ## What is skipped -/

theorem prefix_skipped_bind (p : Progress) (op : PlannedOperation) :
    p.skipped <+: (p.bind op).1.skipped := by
  unfold bind
  split
  · exact List.prefix_append _ _
  · exact List.prefix_refl _

/-- An operation forgets nothing that was skipped. -/
theorem prefix_skipped_execute (library : Library) (settings : Settings) (p : Progress)
    (op : PlannedOperation) : p.skipped <+: (execute library settings p op).1.skipped := by
  unfold execute
  split
  · exact prefix_skipped_bind p op
  · unfold adopt adoptFrom
    split <;> exact List.prefix_refl _
  · unfold define
    split <;> exact List.prefix_refl _
  · unfold link linkFrom
    simp only
    split <;> exact List.prefix_refl _
  all_goals exact List.prefix_refl _

/-- A run without failure starts with an operation without failure. -/
theorem executeAll_cons_done (hr : executeAll library settings (op :: ops) p = (q, none)) :
    ∃ p', execute library settings p op = (p', none) ∧
      executeAll library settings ops p' = (q, none) := by
  unfold executeAll at hr
  split at hr
  · next p' he => exact ⟨p', he, hr⟩
  · cases hr

/-- **A run forgets nothing that was skipped.** -/
theorem prefix_skipped_executeAll (hr : executeAll library settings ops p = (q, none)) :
    p.skipped <+: q.skipped := by
  induction ops generalizing p with
  | nil =>
    cases hr
    exact List.prefix_refl _
  | cons op ops ih =>
    obtain ⟨p', he, hr⟩ := executeAll_cons_done hr
    have hp := prefix_skipped_execute library settings p op
    rw [he] at hp
    exact hp.trans (ih hr)

/-! ## What is executed -/

/-- A run reaches an operation without a failure and executes it without failing or skipping it. -/
inductive Executed (library : Library) (settings : Settings) (op : PlannedOperation) :
    List PlannedOperation → Progress → Prop where
  | here {ops : List PlannedOperation} {p q : Progress}
      (done : execute library settings p op = (q, none)) (kept : q.skipped = p.skipped) :
      Executed library settings op (op :: ops) p
  | later {o : PlannedOperation} {ops : List PlannedOperation} {p q : Progress}
      (done : execute library settings p o = (q, none))
      (rest : Executed library settings op ops q) :
      Executed library settings op (o :: ops) p

theorem Executed.mem (h : Executed library settings op ops p) : op ∈ ops := by
  induction h with
  | here => exact List.mem_cons_self
  | later _ _ ih => exact List.mem_cons_of_mem _ ih

/-- **A run without failures and skips executes each operation.** -/
theorem executed_of_mem (hr : executeAll library settings ops p = (q, none))
    (hs : q.skipped = p.skipped) (hop : op ∈ ops) : Executed library settings op ops p := by
  induction ops generalizing p with
  | nil => exact absurd hop List.not_mem_nil
  | cons o ops ih =>
    obtain ⟨p', he, hr⟩ := executeAll_cons_done hr
    have hp := prefix_skipped_execute library settings p o
    rw [he] at hp
    -- Nothing was skipped between the start and the end, so nothing was in this step.
    have hp' : p'.skipped = p.skipped := by
      refine (hp.eq_of_length_le ?_).symm
      rw [← hs]
      exact (prefix_skipped_executeAll hr).length_le
    rcases List.mem_cons.1 hop with rfl | hop
    · exact .here he hp'
    · exact .later he (ih hr (hs.trans hp'.symm) hop)

end Progress

/-! ## Stitches -/

namespace Workshop

variable {w w' : Workshop} {rootId : String} {r : SecondaryRelation} {rs : List SecondaryRelation}

theorem get?_put (w : Workshop) (id : String) (e : Instance) (x : String) :
    (w.put id e).get? x = if x = id then (w.get? x).map fun _ => e else w.get? x := by
  unfold get? put
  simp only
  induction w.instances with
  | nil => simp
  | cons f fs ih =>
    rw [List.map_cons, List.find?_cons, List.find?_cons]
    by_cases hf : f.1 = id <;> by_cases hx : f.1 = x <;> grind

theorem get_eq_ok {id : String} {e : Instance} : w.get id = .ok e ↔ w.get? id = some e := by
  unfold get
  split <;> grind

/-- A bind fails before it does anything, or it binds the instances of two elements. -/
theorem bind_cases (w : Workshop) (parentId childId : String) :
    (∃ error, w.bind parentId childId = (w, some error) ∧
      (parentId = childId ∧ error = .selfBinding parentId ∨
        ∃ id ∈ [parentId, childId], w.get id = .error error)) ∨
    ∃ parent child, parentId ≠ childId ∧ w.get? parentId = some parent ∧
      w.get? childId = some child ∧
      w.bind parentId childId =
        ((w.put parentId (parent.bind child).state.1).put childId (parent.bind child).state.2,
          (parent.bind child).error?.map .ontology) := by
  unfold bind
  split
  · next hself => exact Or.inl ⟨_, rfl, Or.inl ⟨hself, rfl⟩⟩
  · next hne =>
    split
    · next hc => exact Or.inl ⟨_, rfl, Or.inr ⟨childId, by simp, hc⟩⟩
    · next hp => exact Or.inl ⟨_, rfl, Or.inr ⟨parentId, by simp, hp⟩⟩
    · next child parent hc hp =>
      exact Or.inr ⟨parent, child, hne, get_eq_ok.1 hp, get_eq_ok.1 hc, rfl⟩

/-- The ontology of a root has the table of its graph. -/
theorem emitOntology_eq_ok {x : CompiledOntology} : w.emitOntology rootId = .ok x ↔
    ∃ root, w.get? rootId = some root ∧
      x = ⟨rootId, ontologyName root.name, root.graph.rows⟩ := by
  unfold emitOntology get
  cases w.get? rootId with
  | none => simp
  | some root => simp [eq_comm]

/-- The name of the instance of an element. -/
def name? (w : Workshop) (id : String) : Option String :=
  (w.get? id).map Instance.name

theorem graph_composeMissing_grows (root : Instance) (name : String) (graph : TermGraph) :
    Arena.Grows root.graph.toArena (composeMissing root name graph).graph.toArena := by
  unfold composeMissing
  split
  · exact Arena.Grows.refl _
  · exact Arena.grows_compose _ _

theorem name_composeMissing (root : Instance) (name : String) (graph : TermGraph) :
    (composeMissing root name graph).name = root.name := by
  unfold composeMissing
  split <;> rfl

/-- What a stitch does: the graph of the root grows and relates the names of the ends. No instance
changes its name. -/
theorem stitch_done (hs : w.stitch rootId r = (w', none)) :
    ∃ parent child root root',
      w.get? r.parentId = some parent ∧ w.get? r.childId = some child ∧
      w.get? rootId = some root ∧ w'.get? rootId = some root' ∧ (∀ id, w'.name? id = w.name? id) ∧
      Arena.Grows root.graph.toArena root'.graph.toArena ∧
      (root'.graph.relation? parent.name child.name).isSome := by
  unfold stitch at hs
  split at hs
  iterate 3 cases hs
  next parent child root hp hc hr =>
  rw [get_eq_ok] at hp hc hr
  cases hs
  refine ⟨parent, child, root, _, hp, hc, hr, by rw [get?_put, if_pos rfl, hr]; rfl, ?_, ?_, ?_⟩
  · intro id
    unfold name?
    rw [get?_put]
    split
    · next hid =>
      rw [hid, hr]
      simp [Instance.relate, name_composeMissing]
    · rfl
  · exact ((graph_composeMissing_grows root parent.name parent.graph).trans
      (graph_composeMissing_grows _ child.name child.graph)).trans (Arena.grows_relate _ _)
  · exact Arena.relation?_relate_isSome _ _

/-- Stitches without failure start with a stitch without failure. -/
theorem stitchAll_cons_done (hr : stitchAll rootId (r :: rs) w = (w', none)) :
    ∃ w₁, w.stitch rootId r = (w₁, none) ∧ stitchAll rootId rs w₁ = (w', none) := by
  unfold stitchAll at hr
  split at hr
  · next w₁ he => exact ⟨w₁, he, hr⟩
  · cases hr

/-- Stitches let the graph of the root grow and change no name. -/
theorem stitchAll_done (hr : stitchAll rootId rs w = (w', none)) :
    (∀ id, w'.name? id = w.name? id) ∧ ∀ root, w.get? rootId = some root →
      ∃ root', w'.get? rootId = some root' ∧
        Arena.Grows root.graph.toArena root'.graph.toArena := by
  induction rs generalizing w with
  | nil =>
    cases hr
    exact ⟨fun _ => rfl, fun root hg => ⟨root, hg, Arena.Grows.refl _⟩⟩
  | cons r rs ih =>
    obtain ⟨w₁, hs, hr⟩ := stitchAll_cons_done hr
    obtain ⟨hn, hg⟩ := ih hr
    obtain ⟨_, _, root, root₁, -, -, hroot, hroot₁, hn₁, hgrow, -⟩ := stitch_done hs
    refine ⟨fun id => (hn id).trans (hn₁ id), fun root₀ h₀ => ?_⟩
    rw [hroot] at h₀
    obtain rfl := Option.some.inj h₀
    obtain ⟨root', hroot', hgrow'⟩ := hg root₁ hroot₁
    exact ⟨root', hroot', hgrow.trans hgrow'⟩

/-- Stitches reach a relation without a failure and stitch it. -/
inductive Stitched (rootId : String) (r : SecondaryRelation) :
    List SecondaryRelation → Workshop → Prop where
  | here {rs : List SecondaryRelation} {w w' : Workshop} (done : w.stitch rootId r = (w', none)) :
      Stitched rootId r (r :: rs) w
  | later {s : SecondaryRelation} {rs : List SecondaryRelation} {w w' : Workshop}
      (done : w.stitch rootId s = (w', none)) (rest : Stitched rootId r rs w') :
      Stitched rootId r (s :: rs) w

/-- **Stitches without failure stitch each relation.** -/
theorem stitched_of_mem (hs : stitchAll rootId rs w = (w', none)) (hr : r ∈ rs) :
    Stitched rootId r rs w := by
  induction rs generalizing w with
  | nil => exact absurd hr List.not_mem_nil
  | cons s rs ih =>
    obtain ⟨w₁, h₁, hs⟩ := stitchAll_cons_done hs
    rcases List.mem_cons.1 hr with rfl | hr
    · exact .here h₁
    · exact .later h₁ (ih hs hr)

/-- The names of the ends of a stitched relation are related in the graph of the root. -/
theorem Stitched.related (h : Stitched rootId r rs w) (hs : stitchAll rootId rs w = (w', none)) :
    ∃ parent child root, w'.name? r.parentId = some parent ∧ w'.name? r.childId = some child ∧
      w'.get? rootId = some root ∧ (root.graph.relation? parent child).isSome := by
  induction h with
  | here done =>
    obtain ⟨w₁, h₁, hs⟩ := stitchAll_cons_done hs
    obtain ⟨hn, hg⟩ := stitchAll_done hs
    obtain ⟨parent, child, _, root₁, hp, hc, -, hroot₁, hn₁, -, hrel⟩ := stitch_done h₁
    obtain ⟨root', hroot', hgrow⟩ := hg root₁ hroot₁
    refine ⟨parent.name, child.name, root', ?_, ?_, hroot', hgrow.relation?_isSome hrel⟩
    · rw [hn, hn₁, name?, hp]
      rfl
    · rw [hn, hn₁, name?, hc]
      rfl
  | later done _ ih =>
    obtain ⟨w₁, h₁, hs⟩ := stitchAll_cons_done hs
    rw [done] at h₁
    cases h₁
    exact ih hs

/-- **A stitched relation has a row in the ontology of the root.** -/
theorem Stitched.exists_row (h : Stitched rootId r rs w) (hs : stitchAll rootId rs w = (w', none))
    {x : CompiledOntology} (hx : w'.emitOntology rootId = .ok x) :
    ∃ row ∈ x.relationships, w'.name? r.parentId = some row.parent ∧
      w'.name? r.childId = some row.child := by
  obtain ⟨parent, child, root, hp, hc, hroot, hrel⟩ := h.related hs
  obtain ⟨row, hrow, rfl, rfl⟩ := root.graph.valid.exists_row hrel
  obtain ⟨root', hroot', rfl⟩ := emitOntology_eq_ok.1 hx
  obtain rfl := Option.some.inj (hroot.symm.trans hroot')
  exact ⟨row, hrow, hp, hc⟩

end Workshop

end Ontogram
