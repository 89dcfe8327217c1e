import Ontogram.Proofs.Diagram.Agreement
import Ontogram.Proofs.Diagram.Compile

/-!
# Components do not disturb each other

The operations of a component join elements of that component, and different components have no
element in common. So a component finds its instances as they were made, whatever came before it,
and what it leaves behind is there for those after it.

* `agree_start` — every component starts with its own instances as they were made.
* `compile_independent` — a component without secondary relations comes out as if it were alone.
-/

namespace Ontogram

open ExecutionPlan ElementGraph

variable {library : Library} {settings : Settings}

namespace ComponentPlan

variable {c d : ComponentPlan} {w v : Workshop} {ids : List String}

/-- The root is an element of the component, and so are the ends of its operations. -/
structure Enclosed (c : ComponentPlan) : Prop where
  root : ∀ id, c.rootId = some id → id ∈ c.nodes
  ends : ∀ op ∈ c.operations, op.parentId ∈ c.nodes ∧ op.childId ∈ c.nodes

theorem Enclosed.of_accountsFor {g : ElementGraph} (h : AccountsFor g c) : c.Enclosed := by
  cases h with
  | rootless noRoot _ operations _ =>
    refine ⟨fun id hid => ?_, fun op hop => ?_⟩
    · rw [noRoot] at hid
      cases hid
    · rw [operations] at hop
      exact absurd hop List.not_mem_nil
  | rooted root planned rest hasRoot root_mem _ each _ _ operations _ =>
    refine ⟨fun id hid => ?_, fun op hop => ?_⟩
    · rw [hasRoot] at hid
      exact Option.some.inj hid ▸ root_mem
    · obtain ⟨e, he, rfl⟩ := List.mem_map.1 (operations.mem_iff.1 hop)
      exact (mem_edgesIn.1 (each.mem_iff.1 (List.mem_append_left _ he))).2

/-- No element of one component is an element of the other. -/
def Apart (c d : ComponentPlan) : Prop :=
  ∀ id ∈ c.nodes, id ∉ d.nodes

/-- **A component leaves the instances of other elements alone**, and all of them if it has no
root. -/
theorem agree_compile (library : Library) (settings : Settings) (hc : c.Enclosed)
    (hd : c.rootId.isSome → ∀ id ∈ c.nodes, id ∉ ids) (w : Workshop) :
    Workshop.Agree ids (c.compile library settings w).workshop w := by
  unfold compile
  split
  · exact Workshop.Agree.refl ids w
  · next rootId hroot =>
    have hd := hd (Option.isSome_of_eq_some hroot)
    have hends : ∀ op ∈ c.operations, op.parentId ∉ ids ∧ op.childId ∉ ids := fun op hop =>
      ⟨hd _ (hc.ends op hop).1, hd _ (hc.ends op hop).2⟩
    have hops := Progress.agree_executeAll library settings hends ⟨w, []⟩
    have hst := Workshop.agree_stitchAll (hd rootId (hc.root rootId hroot)) c.secondary
    unfold conclude
    split
    · next p _ hp =>
      rw [hp] at hops
      exact hops
    · next p hp =>
      rw [hp] at hops
      have hs := hst p.workshop
      split
      all_goals
        next he =>
        rw [he] at hs
        exact hs.trans hops

/-- **A component sees nothing but its own instances and those of the ends of its secondary
relations.** -/
theorem compile_eq_of_agree (library : Library) (settings : Settings) (hc : c.Enclosed)
    (hn : c.nodes ⊆ ids) (hs : ∀ r ∈ c.secondary, r.parentId ∈ ids ∧ r.childId ∈ ids)
    (h : Workshop.Agree ids w v) :
    Workshop.Agree ids (c.compile library settings w).workshop
        (c.compile library settings v).workshop ∧
      (c.compile library settings w).ontology = (c.compile library settings v).ontology ∧
      (c.compile library settings w).skipped = (c.compile library settings v).skipped := by
  unfold compile
  split
  · exact ⟨h, rfl, rfl⟩
  · next rootId hroot =>
    have hr : rootId ∈ ids := hn (hc.root rootId hroot)
    have hends : ∀ op ∈ c.operations, op.parentId ∈ ids ∧ op.childId ∈ ids := fun op hop =>
      ⟨hn (hc.ends op hop).1, hn (hc.ends op hop).2⟩
    have hrun := Progress.Agree.executeAll library settings (p := ⟨w, []⟩) (q := ⟨v, []⟩)
      ⟨h, rfl⟩ hends
    cases hp : Progress.executeAll library settings c.operations ⟨w, []⟩ with
    | mk p error? =>
      cases hq : Progress.executeAll library settings c.operations ⟨v, []⟩ with
      | mk q error?' =>
        rw [hp, hq] at hrun
        obtain ⟨hagree, rfl⟩ := hrun
        cases error? with
        | some error => exact ⟨hagree.workshop, rfl, hagree.skipped⟩
        | none =>
          have hst := hagree.workshop.stitchAll hr hs
          unfold conclude
          simp only
          cases hp' : Workshop.stitchAll rootId c.secondary p.workshop with
          | mk w₁ error? =>
            cases hq' : Workshop.stitchAll rootId c.secondary q.workshop with
            | mk v₁ error?' =>
              rw [hp', hq'] at hst
              obtain ⟨hagree', rfl⟩ := hst
              cases error? with
              | some error => exact ⟨hagree', rfl, hagree.skipped⟩
              | none => exact ⟨hagree', hagree'.emitOntology hr, hagree.skipped⟩

end ComponentPlan

open ComponentPlan

/-! ## Components in turn -/

variable {cs : List ComponentPlan} {s t : ComponentPlan × Workshop} {w : Workshop}

/-- Components leave the instances of other elements alone. -/
theorem agree_of_mem_starts {ids : List String} (he : ∀ c ∈ cs, c.Enclosed)
    (hd : ∀ c ∈ cs, c.rootId.isSome → ∀ id ∈ c.nodes, id ∉ ids)
    (hs : s ∈ starts library settings cs w) : Workshop.Agree ids s.2 w := by
  induction cs generalizing w with
  | nil => exact absurd hs List.not_mem_nil
  | cons c cs ih =>
    rcases List.mem_cons.1 hs with rfl | hs
    · exact Workshop.Agree.refl ids w
    · have hrest := ih (fun d hd => he d (List.mem_cons_of_mem c hd))
        (fun d hm => hd d (List.mem_cons_of_mem c hm)) hs
      exact hrest.trans (agree_compile library settings (he c List.mem_cons_self)
        (hd c List.mem_cons_self) w)

/-- **Every component starts with its own instances as they were made.** -/
theorem agree_start (he : ∀ c ∈ cs, c.Enclosed) (hd : cs.Pairwise Apart)
    (hs : s ∈ starts library settings cs w) : Workshop.Agree s.1.nodes s.2 w := by
  induction cs generalizing w with
  | nil => exact absurd hs List.not_mem_nil
  | cons c cs ih =>
    rw [List.pairwise_cons] at hd
    rcases List.mem_cons.1 hs with rfl | hs
    · exact Workshop.Agree.refl _ w
    · have hrest := ih (fun d hm => he d (List.mem_cons_of_mem c hm)) hd.2 hs
      exact hrest.trans (agree_compile library settings (he c List.mem_cons_self)
        (fun _ => hd.1 s.1 (mem_of_mem_starts hs)) w)

/-! ## The components of a diagram -/

theorem enclosed_of_mem_components {drawing : Drawing} {ids : IdSource} {c : ComponentPlan}
    (hc : c ∈ (ofGraph (OperationGraph.build drawing settings ids).1).components) : c.Enclosed :=
  .of_accountsFor (accountsFor_of_mem (wellFormed_plannedGraph drawing settings ids) hc).2

/-- **Different components have no element in common.** -/
theorem pairwise_apart_components (drawing : Drawing) (settings : Settings) (ids : IdSource) :
    (ofGraph (OperationGraph.build drawing settings ids).1).components.Pairwise Apart := by
  have hg := wellFormed_plannedGraph drawing settings ids
  have hflat := (flatten_components_perm _).nodup_iff.2 hg.ids_nodup
  rw [← nodes_ofGraph] at hflat
  refine (List.pairwise_map.1 (List.nodup_flatten.1 hflat).2).imp ?_
  intro c d hcd id hc hd
  exact hcd hc hd

/--
**A component without secondary relations comes out as if it were alone.**

There is one result for each component, in the order of the plan. The report has an entry for each:
its root, the number of its operations, its skips and unreached edges, and its error text if it
failed. The ontologies are those of the results without an error. The result of a component without
secondary relations has the ontology or the error, and the skips, that it gets on instances that
were just made and with no template at hand.
-/
theorem compile_independent (library : Library) (settings : Settings) (drawing : Drawing)
    (ids : IdSource) :
    let o := (OperationGraph.build drawing settings ids).1
    let alone := fun c : ComponentPlan =>
      (c.compileWith library settings .empty (Workshop.create library o)).2
    ∃ results : List ComponentResult,
      (compile library settings drawing ids).report.components =
        List.zipWith (fun c r =>
          { rootId := c.rootId, operations := c.operations.length, skipped := r.skipped,
            unreached := c.unreached,
            error := match r.ontology with
              | .ok _ => none
              | .error error => some error.message }) (ofGraph o).components results ∧
      ((compile library settings drawing ids).ontologies = results.filterMap fun r =>
        match r.ontology with
        | .ok x => some x
        | .error _ => none) ∧
      List.Forall₂ (fun c r => c.secondary = [] →
        r.ontology = (alone c).ontology ∧ r.skipped = (alone c).skipped)
        (ofGraph o).components results := by
  intro o alone
  let ss := diagramStarts library settings drawing ids
  let result := fun s : ComponentPlan × Workshop => s.1.compile library settings s.2
  have hplan : ss.map Prod.fst = (ofGraph o).components := starts_map_fst library settings _ _
  have hrun : compileComponents library settings (ofGraph o).components .empty
      (Workshop.create library o) = ss.map fun s => (s.1, result s) :=
    compileComponents_eq_map_starts _ (References.sound_empty library) _
  refine ⟨ss.map result, ?_, ?_, ?_⟩
  · rw [← hplan, List.zipWith_map, List.zipWith_self, compile]
    simp only
    rw [hrun, List.map_map]
    rfl
  · rw [List.filterMap_map, compile]
    simp only
    rw [hrun, List.filterMap_map]
    rfl
  · rw [← hplan, List.forall₂_map_left_iff, List.forall₂_map_right_iff, List.forall₂_same]
    intro s hs hsecondary
    have halone : alone s.1 = s.1.compile library settings (Workshop.create library o) :=
      (compileWith_eq_compile settings s.1 (References.sound_empty library) _).1
    rw [halone]
    exact (compile_eq_of_agree library settings
      (enclosed_of_mem_components (mem_of_mem_starts hs)) (List.Subset.refl _)
      (by simp [hsecondary])
      (agree_start (fun _ => enclosed_of_mem_components)
        (pairwise_apart_components drawing settings ids) hs)).2

end Ontogram
