import Ontogram.Diagram.Plan
import Ontogram.Proofs.Diagram.Components

/-!
# A plan accounts for every edge

The plan of a component with a root has each edge of the component once: among its operations if the
root leads to the parent of the edge, and among the unreached edges if not. The plan of a component
without root has none of its edges.

* `edgesFrom_append_unreached_perm` — no edge of a component gets lost.
* `ofDrawing_accounts_for_edges` — neither does one of the diagram.
-/

namespace Ontogram.ExecutionPlan

open ElementGraph

variable {g : ElementGraph}

/-! ## Sorting -/

theorem byWeight_ne_eq (x y : PlannedOperation) : byWeight x y ≠ .eq := by
  unfold byWeight
  split <;> exact nofun

theorem sortByWeight_perm (ops : List PlannedOperation) : (sortByWeight ops).Perm ops :=
  Sorting.perm_sort byWeight_ne_eq ops

/-! ## The edges of a component -/

theorem mem_edgesFrom (h : g.WellFormed) {root : String} (hr : root ∈ g.ids) {e : OperationEdge} :
    e ∈ edgesFrom g root ↔ e ∈ g.edges ∧ g.Leads root e.parentId := by
  unfold edgesFrom
  simp only [List.mem_flatMap, mem_reached_iff h hr, mem_outgoing]
  constructor
  · rintro ⟨a, hl, he, rfl⟩
    exact ⟨he, hl⟩
  · rintro ⟨he, hl⟩
    exact ⟨e.parentId, hl, he, rfl⟩

theorem edgesFrom_nodup (h : g.WellFormed) (root : String) : (edgesFrom g root).Nodup := by
  unfold edgesFrom
  rw [List.nodup_flatMap]
  refine ⟨fun a _ => h.edges_nodup.filter _, ?_⟩
  refine (Search.reached_nodup g.successors _ root).imp ?_
  intro a b hab e ha hb
  exact hab ((mem_outgoing.1 ha).2.symm.trans (mem_outgoing.1 hb).2)

/-- The edges of a component that its root does not lead to. -/
def unreachedEdges (g : ElementGraph) (members : List String) (root : String) :
    List OperationEdge :=
  g.edges.filter fun e => members.contains e.parentId && !(edgesFrom g root).contains e

theorem mem_unreachedEdges (h : g.WellFormed) {members : List String} {root : String}
    (hr : root ∈ g.ids) {e : OperationEdge} :
    e ∈ unreachedEdges g members root ↔
      e ∈ g.edges ∧ e.parentId ∈ members ∧ ¬g.Leads root e.parentId := by
  simp only [unreachedEdges, List.mem_filter, Bool.and_eq_true, Bool.not_eq_true',
    List.contains_eq_mem, decide_eq_true_eq, decide_eq_false_iff_not, mem_edgesFrom h hr]
  grind

/-- **No edge of a component gets lost, and none is there twice.** -/
theorem edgesFrom_append_unreached_perm (h : g.WellFormed) {members : List String}
    (hm : members ∈ g.components) {root : String} (hr : root ∈ members) :
    (edgesFrom g root ++ unreachedEdges g members root).Perm (g.edgesIn members) := by
  have hri := mem_ids_of_mem_component hm hr
  have hnd : (edgesFrom g root ++ unreachedEdges g members root).Nodup := by
    refine (edgesFrom_nodup h root).append (h.edges_nodup.filter _) ?_
    intro e hf hu
    exact ((mem_unreachedEdges h hri).1 hu).2.2 ((mem_edgesFrom h hri).1 hf).2
  rw [List.perm_ext_iff_of_nodup hnd (h.edgesIn_nodup members)]
  intro e
  rw [List.mem_append, mem_edgesFrom h hri, mem_unreachedEdges h hri, mem_edgesIn]
  constructor
  · rintro (⟨he, hl⟩ | ⟨he, hp, -⟩)
    · -- What the root leads to is in its component.
      have hp := (mem_component_iff h hm hr).2 hl.connected
      exact ⟨he, hp, (mem_component_of_edge h hm he).1 hp⟩
    · exact ⟨he, hp, (mem_component_of_edge h hm he).1 hp⟩
  · rintro ⟨he, hp, -⟩
    by_cases hl : g.Leads root e.parentId
    · exact Or.inl ⟨he, hl⟩
    · exact Or.inr ⟨he, hp, hl⟩

/-! ## The plan of a component -/

/-- What a plan has of the edges of a component. -/
inductive AccountsFor (g : ElementGraph) (c : ComponentPlan) : Prop where
  /-- An edge leads to every element, and no edge is there. -/
  | rootless (noRoot : c.rootId = none) (incoming : ∀ id ∈ c.nodes, ∃ a, g.Edge a id)
      (operations : c.operations = []) (unreached : c.unreached = [])
  /-- No edge leads to the root. Each edge is planned or unreached, by whether the root leads to its
  parent. A planned edge gives an operation of its id, kind, relation and ends, with the label of
  its child. -/
  | rooted (root : String) (planned rest : List OperationEdge) (hasRoot : c.rootId = some root)
      (root_mem : root ∈ c.nodes) (head : ¬∃ a, g.Edge a root)
      (each : (planned ++ rest).Perm (g.edgesIn c.nodes))
      (led : ∀ e ∈ planned, g.Leads root e.parentId)
      (notLed : ∀ e ∈ rest, ¬g.Leads root e.parentId)
      (operations : c.operations.Perm (planned.map fun e =>
        { relId := e.relId, kind := e.kind, rel := e.rel, parentId := e.parentId,
          childId := e.childId, child := ((g.element? e.childId).map Element.content).getD "" }))
      (unreached : c.unreached = rest.map fun e => e.relId)

theorem AccountsFor.withSecondary {c : ComponentPlan} (h : AccountsFor g c)
    (secondary : List SecondaryRelation) : AccountsFor g { c with secondary := secondary } := by
  cases h with
  | rootless noRoot incoming operations unreached =>
    exact .rootless noRoot incoming operations unreached
  | rooted root planned rest hasRoot root_mem head each led notLed operations unreached =>
    exact .rooted root planned rest hasRoot root_mem head each led notLed operations unreached

theorem nodes_componentPlan (g : ElementGraph) (members : List String) :
    (componentPlan g members).nodes = members := by
  unfold componentPlan
  split <;> rfl

theorem accountsFor_componentPlan (h : g.WellFormed) {members : List String}
    (hm : members ∈ g.components) : AccountsFor g (componentPlan g members) := by
  unfold componentPlan
  split
  · next hr => exact .rootless rfl (head?_eq_none hr) rfl rfl
  · next root hr =>
    obtain ⟨hmem, hhead⟩ := head?_eq_some hr
    have hri := mem_ids_of_mem_component hm hmem
    refine .rooted root (edgesFrom g root) (unreachedEdges g members root) rfl hmem hhead
      (edgesFrom_append_unreached_perm h hm hmem) ?_ ?_ ?_ rfl
    · intro e he
      exact ((mem_edgesFrom h hri).1 he).2
    · intro e he
      exact ((mem_unreachedEdges h hri).1 he).2.2
    · exact (sortByWeight_perm _).trans ((List.reverse_perm _).map _)

/-! ## The plan of a diagram -/

/-- The graph that a plan is made from. -/
def plannedGraph (o : OperationGraph) : ElementGraph :=
  o.graph.without o.isolates

theorem wellFormed_plannedGraph (drawing : Drawing) (settings : Settings) (ids : IdSource) :
    (plannedGraph (OperationGraph.build drawing settings ids).1).WellFormed :=
  (OperationGraph.wellFormed_build drawing settings ids).without _

theorem mem_components_ofGraph {o : OperationGraph} {c : ComponentPlan}
    (hc : c ∈ (ofGraph o).components) :
    ∃ members ∈ (plannedGraph o).components, ∃ secondary,
      c = { componentPlan (plannedGraph o) members with secondary := secondary } := by
  unfold ofGraph at hc
  obtain ⟨⟨members, i⟩, hm, rfl⟩ := List.mem_map.1 hc
  exact ⟨members, List.fst_mem_of_mem_zipIdx hm, _, rfl⟩

theorem nodes_ofGraph (o : OperationGraph) :
    (ofGraph o).components.map ComponentPlan.nodes = (plannedGraph o).components := by
  unfold ofGraph
  simp only [List.map_map]
  calc List.map _ (plannedGraph o).components.zipIdx
      = (plannedGraph o).components.zipIdx.map Prod.fst := by
        refine List.map_congr_left fun p _ => ?_
        exact nodes_componentPlan _ _
    _ = (plannedGraph o).components := by rw [List.zipIdx_map_fst]

/-- Every component of a plan is a class of connected elements, and its edges are accounted for. -/
theorem accountsFor_of_mem {o : OperationGraph} (h : (plannedGraph o).WellFormed)
    {c : ComponentPlan} (hc : c ∈ (ofGraph o).components) :
    (∀ x ∈ c.nodes, ∀ y, y ∈ c.nodes ↔ (plannedGraph o).Connected x y) ∧
      AccountsFor (plannedGraph o) c := by
  obtain ⟨members, hm, secondary, rfl⟩ := mem_components_ofGraph hc
  refine ⟨?_, (accountsFor_componentPlan h hm).withSecondary secondary⟩
  simp only [nodes_componentPlan]
  intro x hx y
  exact mem_component_iff h hm hx

/-- **A plan accounts for every edge of the diagram.** Each edge that the isolates leave is in one
component, which is a class of connected elements, and it is planned or unreached there; a component
without root has none of its edges. -/
theorem ofDrawing_accounts_for_edges (drawing : Drawing) (settings : Settings) (ids : IdSource) :
    let g := plannedGraph (OperationGraph.build drawing settings ids).1
    let p := ofDrawing drawing settings ids
    (g.edges.map OperationEdge.ends).Nodup ∧
    (p.components.flatMap fun c => g.edgesIn c.nodes).Perm g.edges ∧
    ∀ c ∈ p.components,
      (∀ x ∈ c.nodes, ∀ y, y ∈ c.nodes ↔ g.Connected x y) ∧ AccountsFor g c := by
  intro g p
  have h : g.WellFormed := wellFormed_plannedGraph drawing settings ids
  refine ⟨h.pairs_nodup, ?_, fun c hc => accountsFor_of_mem h hc⟩
  have hnodes : p.components.map ComponentPlan.nodes = g.components := nodes_ofGraph _
  have hperm := flatMap_edgesIn_perm h
  rwa [← hnodes, List.flatMap_map] at hperm

/-! ## Secondary relations -/

theorem owner?_lt {components : List (List String)} {isolates : List String}
    {r : SecondaryRelation} {i : Nat} (hi : owner? components isolates r = some i) :
    i < components.length := by
  unfold owner? componentIndex? at hi
  split at hi
  · next j hj =>
    rw [← Option.some.inj hi]
    exact (List.findIdx?_eq_some_iff_findIdx_eq.1 hj).1
  · split at hi
    · exact (List.findIdx?_eq_some_iff_findIdx_eq.1 hi).1
    · cases hi

/-- A secondary relation is unplaced or belongs to a component. -/
theorem mem_unplaced_or_secondary {o : OperationGraph} {r : SecondaryRelation}
    (hr : r ∈ o.secondary) :
    r ∈ (ofGraph o).unplaced ∨ ∃ c ∈ (ofGraph o).components, r ∈ c.secondary := by
  unfold ofGraph
  simp only
  cases hw : owner? (o.graph.without o.isolates).components o.isolates r with
  | none => exact Or.inl (List.mem_filter.2 ⟨hr, by simp [hw]⟩)
  | some i =>
    have hi := owner?_lt hw
    refine Or.inr ⟨_, List.mem_map.2 ⟨⟨(o.graph.without o.isolates).components[i], i⟩, ?_, rfl⟩, ?_⟩
    · rw [List.mem_zipIdx_iff_getElem?, List.getElem?_eq_getElem hi]
    · exact List.mem_filter.2 ⟨hr, by simp [hw]⟩

end Ontogram.ExecutionPlan
