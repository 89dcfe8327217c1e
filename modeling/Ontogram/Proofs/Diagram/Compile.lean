import Ontogram.Proofs.Diagram.Execution
import Ontogram.Proofs.Diagram.Plan
import Ontogram.Proofs.Diagram.References

/-!
# What a clean report promises

If the report on a diagram is clean, every operation that was planned was executed, and every
secondary relation has a row in an ontology. But a clean report does not look at the edges that no
plan executes: those that the root of their component does not lead to, and those at an isolate.

* `executed_iff_of_clean` — which edges are executed if the report is clean.
-/

namespace Ontogram

open ExecutionPlan ElementGraph

variable {library : Library} {settings : Settings}

/-! ## Components -/

namespace ComponentPlan

/-- The component stitches a secondary relation into the ontology that it gives. -/
def Stitches (library : Library) (settings : Settings) (c : ComponentPlan) (w : Workshop)
    (r : SecondaryRelation) (x : CompiledOntology) : Prop :=
  ∃ rootId p w', c.rootId = some rootId ∧
    Progress.executeAll library settings c.operations ⟨w, []⟩ = (p, none) ∧
    Workshop.Stitched rootId r c.secondary p.workshop ∧
    Workshop.stitchAll rootId c.secondary p.workshop = (w', none) ∧
    w'.emitOntology rootId = .ok x ∧
    ∃ row ∈ x.relationships, w'.name? r.parentId = some row.parent ∧
      w'.name? r.childId = some row.child

/-- What a component with an ontology has done. -/
theorem compile_ok {c : ComponentPlan} {w : Workshop} {x : CompiledOntology}
    (hx : (c.compile library settings w).ontology = .ok x) :
    ∃ rootId p w', c.rootId = some rootId ∧
      Progress.executeAll library settings c.operations ⟨w, []⟩ = (p, none) ∧
      Workshop.stitchAll rootId c.secondary p.workshop = (w', none) ∧
      w'.emitOntology rootId = .ok x ∧
      (c.compile library settings w).skipped = p.skipped := by
  unfold compile at hx ⊢
  split at hx
  · cases hx
  · next rootId hroot =>
    unfold conclude at hx ⊢
    split at hx
    · cases hx
    · next p hp =>
      split at hx
      · cases hx
      · next w' hw => exact ⟨rootId, p, w', hroot, hp, hw, hx, rfl⟩

theorem report_isSuccess {c : ComponentPlan} {r : ComponentResult} :
    (c.report r).isSuccess = true ↔ ∃ x, r.ontology = .ok x := by
  unfold report ComponentReport.isSuccess
  cases r.ontology <;> simp

/-- A component with an ontology and no skips has executed each of its operations. -/
theorem executed_of_compile_ok {c : ComponentPlan} {w : Workshop} {x : CompiledOntology}
    (hx : (c.compile library settings w).ontology = .ok x)
    (hs : (c.compile library settings w).skipped = []) {op : PlannedOperation}
    (hop : op ∈ c.operations) : Progress.Executed library settings op c.operations ⟨w, []⟩ := by
  obtain ⟨_, p, _, -, hp, -, -, hskip⟩ := compile_ok hx
  exact Progress.executed_of_mem hp (hskip.symm.trans hs) hop

/-- A component with an ontology has stitched each of its secondary relations into it. -/
theorem stitches_of_compile_ok {c : ComponentPlan} {w : Workshop} {x : CompiledOntology}
    (hx : (c.compile library settings w).ontology = .ok x) {r : SecondaryRelation}
    (hr : r ∈ c.secondary) : c.Stitches library settings w r x := by
  obtain ⟨rootId, p, w', hroot, hp, hw, hemit, -⟩ := compile_ok hx
  have hst := Workshop.stitched_of_mem hw hr
  exact ⟨rootId, p, w', hroot, hp, hst, hw, hemit, hst.exists_row hw hemit⟩

end ComponentPlan

theorem ComponentResult.ontology?_eq_some {r : ComponentResult} {x : CompiledOntology} :
    r.ontology? = some x ↔ r.ontology = .ok x := by
  unfold ontology?
  cases r.ontology <;> simp

/-! ## The components of a diagram in turn -/

/-- The components, each with the instances that it starts with. -/
def starts (library : Library) (settings : Settings) :
    List ComponentPlan → Workshop → List (ComponentPlan × Workshop)
  | [], _ => []
  | c :: cs, w => (c, w) :: starts library settings cs (c.compile library settings w).workshop

theorem compileComponents_eq_map_starts (cs : List ComponentPlan) {references : References}
    (h : references.Sound library) (w : Workshop) :
    compileComponents library settings cs references w =
      (starts library settings cs w).map fun s => (s.1, s.1.compile library settings s.2) := by
  induction cs generalizing references w with
  | nil => rfl
  | cons c cs ih =>
    obtain ⟨hresult, hsound⟩ := c.compileWith_eq_compile settings h w
    rw [compileComponents, starts, List.map_cons]
    simp only [hresult, ih hsound]

theorem starts_map_fst (library : Library) (settings : Settings) (cs : List ComponentPlan)
    (w : Workshop) : (starts library settings cs w).map Prod.fst = cs := by
  induction cs generalizing w with
  | nil => rfl
  | cons c cs ih => rw [starts, List.map_cons, ih]

theorem mem_of_mem_starts {cs : List ComponentPlan} {s : ComponentPlan × Workshop} {w : Workshop}
    (hs : s ∈ starts library settings cs w) : s.1 ∈ cs := by
  rw [← starts_map_fst library settings cs w]
  exact List.mem_map_of_mem hs

theorem exists_start {cs : List ComponentPlan} {c : ComponentPlan} (hc : c ∈ cs) (w : Workshop) :
    ∃ v, (c, v) ∈ starts library settings cs w := by
  rw [← starts_map_fst library settings cs w] at hc
  obtain ⟨⟨_, v⟩, hs, rfl⟩ := List.mem_map.1 hc
  exact ⟨v, hs⟩

/-- The components of a diagram, each with the instances that it starts with. -/
def diagramStarts (library : Library) (settings : Settings) (drawing : Drawing) (ids : IdSource) :
    List (ComponentPlan × Workshop) :=
  let o := (OperationGraph.build drawing settings ids).1
  starts library settings (ofGraph o).components (Workshop.create library o)

/-- Some component executes the operation of an edge. -/
def ExecutesEdge (library : Library) (settings : Settings) (drawing : Drawing) (ids : IdSource)
    (e : OperationEdge) : Prop :=
  ∃ s ∈ diagramStarts library settings drawing ids,
    Progress.Executed library settings
      (operationOf (plannedGraph (OperationGraph.build drawing settings ids).1) e)
      s.1.operations ⟨s.2, []⟩

/-- Some component stitches a secondary relation into an ontology of the diagram. -/
def StitchesRelation (library : Library) (settings : Settings) (drawing : Drawing) (ids : IdSource)
    (r : SecondaryRelation) : Prop :=
  ∃ s ∈ diagramStarts library settings drawing ids,
    ∃ x ∈ (compile library settings drawing ids).ontologies, s.1.Stitches library settings s.2 r x

/-! ## Clean reports -/

variable {drawing : Drawing} {ids : IdSource}

/-- A component that starts has its result among those of the diagram. -/
theorem result_mem_of_mem_starts {s : ComponentPlan × Workshop}
    (hs : s ∈ diagramStarts library settings drawing ids) :
    let o := (OperationGraph.build drawing settings ids).1
    (s.1, s.1.compile library settings s.2) ∈ compileComponents library settings
      (ofGraph o).components .empty (Workshop.create library o) := by
  intro o
  rw [compileComponents_eq_map_starts _ (References.sound_empty library)]
  exact List.mem_map_of_mem hs

/-- A component of a clean diagram gives an ontology and skips nothing. -/
theorem compile_ok_of_clean (hclean : (compile library settings drawing ids).report.isClean = true)
    {s : ComponentPlan × Workshop} (hs : s ∈ diagramStarts library settings drawing ids) :
    ∃ x ∈ (compile library settings drawing ids).ontologies,
      (s.1.compile library settings s.2).ontology = .ok x ∧
        (s.1.compile library settings s.2).skipped = [] := by
  have hresult := result_mem_of_mem_starts hs
  unfold compile CompileReport.isClean at hclean
  simp only [Bool.and_eq_true, List.all_eq_true] at hclean
  obtain ⟨hok, hskip⟩ := hclean.1 _ (List.mem_map_of_mem hresult)
  obtain ⟨x, hx⟩ := ComponentPlan.report_isSuccess.1 hok
  refine ⟨x, List.mem_filterMap.2 ⟨_, hresult, ?_⟩, hx, List.isEmpty_iff.1 hskip⟩
  exact ComponentResult.ontology?_eq_some.2 hx

theorem unplaced_eq_nil_of_clean
    (hclean : (compile library settings drawing ids).report.isClean = true) :
    (ofGraph (OperationGraph.build drawing settings ids).1).unplaced = [] := by
  unfold compile CompileReport.isClean at hclean
  simpa using (Bool.and_eq_true_iff.1 hclean).2

/-- The operation of an edge is planned where the root leads to its parent, and nowhere else. -/
theorem operationOf_mem_iff {e : OperationEdge}
    (he : e ∈ (OperationGraph.build drawing settings ids).1.graph.edges) :
    let o := (OperationGraph.build drawing settings ids).1
    (∃ c ∈ (ofGraph o).components, operationOf (plannedGraph o) e ∈ c.operations) ↔
      e.parentId ∉ o.isolates ∧ e.childId ∉ o.isolates ∧
        ∃ c ∈ (ofGraph o).components, ∃ root, c.rootId = some root ∧
          (plannedGraph o).Leads root e.parentId := by
  intro o
  have hwf : o.graph.WellFormed := OperationGraph.wellFormed_build drawing settings ids
  have hg : (plannedGraph o).WellFormed := wellFormed_plannedGraph drawing settings ids
  constructor
  · rintro ⟨c, hc, hop⟩
    cases (accountsFor_of_mem hg hc).2 with
    | rootless _ _ operations _ =>
      rw [operations] at hop
      exact absurd hop List.not_mem_nil
    | rooted root planned rest hasRoot _ _ each led _ operations _ =>
      obtain ⟨f, hf, hfe⟩ := List.mem_map.1 (operations.mem_iff.1 hop)
      have hfg := (mem_edgesIn.1 (each.mem_iff.1 (List.mem_append_left _ hf))).1
      obtain ⟨hfo, hp, hch⟩ := mem_edges_without.1 hfg
      -- The operation has the pair of its edge, and a pair has one edge.
      obtain rfl : f = e := hwf.edge_unique hfo he (congrArg PlannedOperation.parentId hfe)
        (congrArg PlannedOperation.childId hfe)
      exact ⟨hp, hch, c, hc, root, hasRoot, led f hf⟩
  · rintro ⟨hp, hch, c, hc, root, hroot, hl⟩
    have heg : e ∈ (plannedGraph o).edges := mem_edges_without.2 ⟨he, hp, hch⟩
    obtain ⟨hclass, hacc⟩ := accountsFor_of_mem hg hc
    cases hacc with
    | rootless noRoot _ _ _ =>
      rw [noRoot] at hroot
      cases hroot
    | rooted root' planned rest hasRoot root_mem _ each _ notLed operations _ =>
      rw [hasRoot] at hroot
      obtain rfl := Option.some.inj hroot
      have hpm := (hclass root' root_mem e.parentId).2 hl.connected
      have hcm := (hclass root' root_mem e.childId).2
        (hl.connected.trans _ _ _ (.rel _ _ (Edge.of_mem heg)))
      have hin := each.mem_iff.2 (mem_edgesIn.2 ⟨heg, hpm, hcm⟩)
      rcases List.mem_append.1 hin with hin | hin
      · exact ⟨c, hc, operations.mem_iff.2 (List.mem_map_of_mem hin)⟩
      · exact absurd hl (notLed e hin)

/-- **What a clean report promises.** An edge was executed exactly if it is not at an isolate and
the root of its component leads to its parent. Every secondary relation was stitched into an
ontology. -/
theorem executed_iff_of_clean (library : Library) (settings : Settings) (drawing : Drawing)
    (ids : IdSource) (hclean : (compile library settings drawing ids).report.isClean = true) :
    let o := (OperationGraph.build drawing settings ids).1
    (∀ e ∈ o.graph.edges, ExecutesEdge library settings drawing ids e ↔
      e.parentId ∉ o.isolates ∧ e.childId ∉ o.isolates ∧
        ∃ c ∈ (ofGraph o).components, ∃ root, c.rootId = some root ∧
          (plannedGraph o).Leads root e.parentId) ∧
    ∀ r ∈ o.secondary, StitchesRelation library settings drawing ids r := by
  intro o
  constructor
  · intro e he
    refine Iff.trans ?_ (operationOf_mem_iff he)
    constructor
    · rintro ⟨s, hs, hex⟩
      refine ⟨s.1, ?_, hex.mem⟩
      have hm := List.mem_map_of_mem (f := Prod.fst) hs
      rwa [diagramStarts, starts_map_fst] at hm
    · rintro ⟨c, hc, hop⟩
      obtain ⟨w, hs⟩ := exists_start hc (Workshop.create library o)
      obtain ⟨x, -, hx, hskip⟩ := compile_ok_of_clean hclean hs
      exact ⟨(c, w), hs, ComponentPlan.executed_of_compile_ok hx hskip hop⟩
  · intro r hr
    rcases mem_unplaced_or_secondary hr with hr | ⟨c, hc, hr⟩
    · rw [unplaced_eq_nil_of_clean hclean] at hr
      exact absurd hr List.not_mem_nil
    · obtain ⟨w, hs⟩ := exists_start hc (Workshop.create library o)
      obtain ⟨x, hxm, hx, -⟩ := compile_ok_of_clean hclean hs
      exact ⟨(c, w), hs, x, hxm, ComponentPlan.stitches_of_compile_ok hx hr⟩

/-- Two elements that define the same value. The component has the root of the first. -/
def definedTwice : Drawing :=
  (Drawing.empty.relate "a" "A[T|t_]" "mds:define" "c" "5(v_)").relate
    "b" "B[T|t_]" "mds:define" "c" "5(v_)"

/-- A template with a variable. -/
def variableTemplate : Library :=
  .ofList [("T", [⟨"t_", "v_", "has", false⟩])]

theorem executed_iff_of_clean_definedTwice :
    (compile variableTemplate .standard definedTwice (.ofHeader "gen")).report.isClean = true ∧
    ∃ e ∈ (OperationGraph.build definedTwice .standard (.ofHeader "gen")).1.graph.edges,
      e.kind = .define ∧
      ¬ExecutesEdge variableTemplate .standard definedTwice (.ofHeader "gen") e := by
  have hclean : (compile variableTemplate .standard definedTwice
      (.ofHeader "gen")).report.isClean = true := by decide +kernel
  refine ⟨hclean, ⟨"b", "c", "mds:define", "r2", .define, false⟩, by decide +kernel, rfl, ?_⟩
  rw [(executed_iff_of_clean _ _ _ _ hclean).1 _ (by decide +kernel)]
  rintro ⟨-, -, c, hc, root, hroot, hl⟩
  have hroots : ∀ c ∈ (ofGraph (OperationGraph.build definedTwice .standard
      (.ofHeader "gen")).1).components, c.rootId = some "a" := by decide +kernel
  have hheads : ∀ e ∈ (plannedGraph (OperationGraph.build definedTwice .standard
      (.ofHeader "gen")).1).edges, e.childId ≠ "b" := by decide +kernel
  rw [hroots c hc] at hroot
  rcases Relation.ReflTransGen.cases_tail hl with hab | ⟨_, -, e, he, -, hb⟩
  · rw [← Option.some.inj hroot] at hab
    exact absurd hab (by decide)
  · exact hheads e he hb

end Ontogram
