import Mathlib.Data.List.Flatten
import Ontogram.Proofs.Diagram.Plan
import Ontogram.Proofs.Search.Order

/-!
# The order of operations

A plan reverses the order in which the search from the root found the edges, and its sort keeps that
order among operations of one weight. So of two binds in a chain the deeper one comes first exactly
if the search found the upper parent before the lower one. It does if the upper parent is nearer to
the root, as in a chain of binds alone; an edge of any kind that makes the lower one nearer turns
the two around.

* `filter_sortByWeight`, `pairwise_sortByWeight` — the sort orders by weight and is stable.
* `precedes_iff_found_before` — the later a parent is found, the earlier its operations run.
* `bind_precedes_iff` — which of two binds in a chain comes first.
-/

namespace Ontogram

namespace ExecutionPlan

open ElementGraph

variable {g : ElementGraph}

/-! ## Sorting -/

theorem byWeight_eq_lt {x y : PlannedOperation} :
    byWeight x y = .lt ↔ y.kind.weight ≤ x.kind.weight := by
  unfold byWeight
  split
  · next hle => exact iff_of_true rfl hle
  · next hlt => exact iff_of_false nofun hlt

theorem orders_byWeight :
    Sorting.Orders byWeight fun x y => y.kind.weight ≤ x.kind.weight where
  trans hxy hyz := Nat.le_trans hyz hxy
  of_lt := byWeight_eq_lt.1
  of_gt {x y} h := by
    by_contra hlt
    rw [byWeight_eq_lt.2 (Nat.le_of_not_le hlt)] at h
    cases h
  of_eq h := absurd h (byWeight_ne_eq _ _)

/-- **The sort is stable**: it keeps the order of operations of one weight. -/
theorem filter_sortByWeight (weight : Nat) (ops : List PlannedOperation) :
    (sortByWeight ops).filter (fun o => o.kind.weight = weight) =
      ops.filter fun o => o.kind.weight = weight := by
  refine Sorting.filter_sort byWeight_ne_eq (fun x y hx hy => byWeight_eq_lt.2 ?_) ops
  rw [of_decide_eq_true hx, of_decide_eq_true hy]

theorem precedes_sortByWeight {ops : List PlannedOperation} {x y : PlannedOperation}
    (hw : x.kind.weight = y.kind.weight) :
    Precedes (sortByWeight ops) x y ↔ Precedes ops x y := by
  have hfilter : ∀ l : List PlannedOperation,
      Precedes (l.filter fun o => o.kind.weight = y.kind.weight) x y ↔ Precedes l x y :=
    fun _ => Precedes.filter_iff (decide_eq_true hw) (decide_eq_true rfl)
  rw [← hfilter, filter_sortByWeight, hfilter]

/-- **The sort orders by weight**, and operations of one weight as they were ordered before. -/
theorem pairwise_sortByWeight {R : PlannedOperation → PlannedOperation → Prop}
    {ops : List PlannedOperation} (h : ops.Pairwise R) :
    (sortByWeight ops).Pairwise fun x y =>
      y.kind.weight ≤ x.kind.weight ∧ (x.kind.weight = y.kind.weight → R x y) := by
  have hweight : (sortByWeight ops).Pairwise fun x y => y.kind.weight ≤ x.kind.weight :=
    orders_byWeight.pairwise_sort ops
  refine List.pairwise_iff_forall_sublist.2 fun {x y} hxy => ?_
  have hxy : Precedes (sortByWeight ops) x y := hxy
  exact ⟨hxy.pairwise hweight, fun hw => ((precedes_sortByWeight hw).1 hxy).pairwise h⟩

/-! ## Found edges -/

/-- The edges of an element that is found earlier are found earlier. -/
theorem precedes_edgesFrom {root : String} {e f : OperationEdge} (he : e ∈ g.edges)
    (hf : f ∈ g.edges)
    (h : Precedes (Search.reached g.successors g.elements.length root) e.parentId f.parentId) :
    Precedes (edgesFrom g root) e f := by
  have hout : ∀ {d}, d ∈ g.edges → [d].Sublist (g.outgoing d.parentId) := fun hd =>
    List.singleton_sublist.2 (mem_outgoing.2 ⟨hd, rfl⟩)
  have hpair : Precedes ([e.parentId, f.parentId].flatMap g.outgoing) e f := by
    rw [List.flatMap_cons, List.flatMap_singleton]
    exact (hout he).append (hout hf)
  exact hpair.trans (h.flatMap _)

/-- Operations of one weight run in the reverse of the order in which their parents are found. -/
theorem precedes_of_found_before {root : String} {e f : OperationEdge} (he : e ∈ g.edges)
    (hf : f ∈ g.edges) (hw : f.kind.weight = e.kind.weight)
    (h : Precedes (Search.reached g.successors g.elements.length root) e.parentId f.parentId) :
    Precedes (sortByWeight ((edgesFrom g root).reverse.map (operationOf g)))
      (operationOf g f) (operationOf g e) := by
  refine (precedes_sortByWeight hw).2 ?_
  exact (precedes_edgesFrom he hf h).reverse.map (operationOf g)

/-! ## The operations of a component -/

theorem operations_of_rootId {o : OperationGraph} {c : ComponentPlan}
    (hc : c ∈ (ofGraph o).components) {root : String} (hroot : c.rootId = some root) :
    c.operations =
      sortByWeight ((edgesFrom (plannedGraph o) root).reverse.map (operationOf (plannedGraph o))) ∧
      root ∈ (plannedGraph o).ids := by
  obtain ⟨members, hm, secondary, rfl⟩ := mem_components_ofGraph hc
  simp only at hroot ⊢
  unfold componentPlan at hroot ⊢
  split at hroot
  · cases hroot
  · next root' hhead =>
    cases hroot
    exact ⟨rfl, mem_ids_of_mem_component hm (head?_eq_some hhead).1⟩

/-- No two operations have the same ends. -/
theorem operations_ends_nodup (h : g.WellFormed) (root : String) :
    ((sortByWeight ((edgesFrom g root).reverse.map (operationOf g))).map
      fun op => (op.parentId, op.childId)).Nodup := by
  rw [((sortByWeight_perm _).map _).nodup_iff, List.map_map]
  refine (List.nodup_reverse.2 (edgesFrom_nodup h root)).map_on fun e he f hf hef => ?_
  have hmem : ∀ d ∈ (edgesFrom g root).reverse, d ∈ g.edges := by
    intro d hd
    obtain ⟨id, -, hd⟩ := List.mem_flatMap.1 (List.mem_reverse.1 hd)
    exact (mem_outgoing.1 hd).1
  exact h.edge_unique (hmem e he) (hmem f hf) (congrArg Prod.fst hef) (congrArg Prod.snd hef)

/-- No operation is planned twice. -/
theorem operations_nodup (h : g.WellFormed) (root : String) :
    (sortByWeight ((edgesFrom g root).reverse.map (operationOf g))).Nodup :=
  .of_map _ (operations_ends_nodup h root)

/-- The operations are those of the edges from elements that the search finds. -/
theorem exists_edge_of_mem_operations (h : g.WellFormed) {root : String} (hr : root ∈ g.ids)
    {op : PlannedOperation}
    (hop : op ∈ sortByWeight ((edgesFrom g root).reverse.map (operationOf g))) :
    ∃ e ∈ g.edges, e.parentId ∈ Search.reached g.successors g.elements.length root ∧
      operationOf g e = op := by
  rw [(sortByWeight_perm _).mem_iff] at hop
  obtain ⟨e, he, rfl⟩ := List.mem_map.1 hop
  obtain ⟨he, hl⟩ := (mem_edgesFrom h hr).1 (List.mem_reverse.1 he)
  exact ⟨e, he, (mem_reached_iff h hr).2 hl, rfl⟩

/-- **Of two operations of one weight, the one whose parent is found later comes first.** -/
theorem precedes_iff_found_before (h : g.WellFormed) {root : String} {e f : OperationEdge}
    (he : e ∈ g.edges) (hf : f ∈ g.edges) (hw : f.kind.weight = e.kind.weight)
    (hep : e.parentId ∈ Search.reached g.successors g.elements.length root)
    (hfp : f.parentId ∈ Search.reached g.successors g.elements.length root)
    (hne : e.parentId ≠ f.parentId) :
    Precedes (sortByWeight ((edgesFrom g root).reverse.map (operationOf g)))
        (operationOf g f) (operationOf g e) ↔
      Precedes (Search.reached g.successors g.elements.length root) e.parentId f.parentId := by
  refine ⟨fun hfe => ?_, precedes_of_found_before he hf hw⟩
  refine (Precedes.total hep hfp hne).resolve_right fun hbefore => ?_
  exact Precedes.asymm (operations_nodup h root) hfe
    (precedes_of_found_before hf he hw.symm hbefore)

/-- **The deeper of two binds in a chain comes first exactly if the search from the root finds the
upper parent first.** So it does if the upper parent is nearer to the root, and it comes last if the
lower parent is nearer. -/
theorem bind_precedes_iff (drawing : Drawing) (settings : Settings) (ids : IdSource)
    {c : ComponentPlan} (hc : c ∈ (ofDrawing drawing settings ids).components)
    {root : String} (hroot : c.rootId = some root) {x y : PlannedOperation}
    (hx : x ∈ c.operations) (hy : y ∈ c.operations) (hbx : x.kind = .bind) (hby : y.kind = .bind)
    (hxy : x.childId = y.parentId) (hne : x.parentId ≠ x.childId) :
    let g := plannedGraph (OperationGraph.build drawing settings ids).1
    (Precedes c.operations y x ↔
      Precedes (Search.reached g.successors g.elements.length root) x.parentId x.childId) ∧
    (Search.Nearer g.successors root x.parentId x.childId → Precedes c.operations y x) ∧
    (Search.Nearer g.successors root x.childId x.parentId → Precedes c.operations x y) := by
  intro g
  have hg : g.WellFormed := wellFormed_plannedGraph drawing settings ids
  obtain ⟨hops, hri⟩ := operations_of_rootId hc hroot
  have hops : c.operations = sortByWeight ((edgesFrom g root).reverse.map (operationOf g)) := hops
  rw [hops] at hx hy ⊢
  obtain ⟨e, he, hep, rfl⟩ := exists_edge_of_mem_operations hg hri hx
  obtain ⟨f, hf, hfp, rfl⟩ := exists_edge_of_mem_operations hg hri hy
  have hw : (operationOf g f).kind.weight = (operationOf g e).kind.weight := by rw [hbx, hby]
  rw [hxy] at hne ⊢
  refine ⟨precedes_iff_found_before hg he hf hw hep hfp hne, fun h => ?_, fun h => ?_⟩
  · exact precedes_of_found_before he hf hw (h.precedes hep hfp)
  · exact precedes_of_found_before hf he hw.symm (h.precedes hfp hep)

/-- A chain of binds, and a note that leads past its upper part. -/
def shortcut : Drawing :=
  ((((Drawing.empty.relate "r" "R[P|p_]" "pmd:note" "c" "C[C|c_]").relate
    "r" "R[P|p_]" "mds:bind" "q" "Q[Q|q_]").relate
    "q" "Q[Q|q_]" "mds:bind" "p" "P[S|s_]").relate
    "p" "P[S|s_]" "mds:bind" "c" "C[C|c_]").relate
    "c" "C[C|c_]" "mds:bind" "d" "D[D|d_]"

theorem bind_precedes_iff_shortcut :
    ∃ c ∈ (ofDrawing shortcut .standard (.ofHeader "gen")).components,
      ∃ x ∈ c.operations, ∃ y ∈ c.operations, x.kind = .bind ∧ y.kind = .bind ∧
        x.childId = y.parentId ∧ Precedes c.operations x y := by
  let x : PlannedOperation := ⟨"r4", .bind, "mds:bind", "p", "c", "C[C|c_]"⟩
  let y : PlannedOperation := ⟨"r5", .bind, "mds:bind", "c", "d", "D[D|d_]"⟩
  have hplan : ∀ c ∈ (ofDrawing shortcut .standard (.ofHeader "gen")).components,
      c.rootId = some "r" ∧ x ∈ c.operations ∧ y ∈ c.operations := by decide +kernel
  obtain ⟨c, hc⟩ := List.exists_mem_of_ne_nil
    (ofDrawing shortcut .standard (.ofHeader "gen")).components (by decide +kernel)
  obtain ⟨hroot, hx, hy⟩ := hplan c hc
  refine ⟨c, hc, x, hx, y, hy, rfl, rfl, rfl, ?_⟩
  -- One step leads to the lower parent, but not to the upper one.
  exact (bind_precedes_iff _ _ _ hc hroot hx hy rfl rfl rfl (by decide)).2.2
    ⟨1, by decide +kernel, by decide +kernel⟩

end ExecutionPlan

end Ontogram
