import Ontogram.Proofs.Diagram.Mentions
import Ontogram.Proofs.Diagram.Plan

/-!
# A plan partitions the elements

Every element of a diagram is an isolate or in one component, and a component is a class of elements
that the edges connect once the isolates are gone. The grouping goes through the elements in their
order and removals keep it, so the order of first mention is that of all lists.

* `mem_plannedGraph_iff` — the elements of components are those that are no isolates.
* `isolates_append_planned_perm` — each element is an isolate or in one component.
* `same_component_iff` — which elements are in one component.
* `ofDrawing_partitions_elements` — both, and the order of the lists.
-/

namespace Ontogram.ElementGraph

variable {g : ElementGraph}

/-- A component keeps the order of the elements. -/
theorem component_sublist {members : List String} (hm : members ∈ g.components) :
    members.Sublist g.ids := by
  obtain ⟨group, hg, rfl⟩ := List.mem_map.1 hm
  exact DisjointSets.group_sublist hg

/-- The components are ordered by their first elements. -/
theorem components_heads_sublist (g : ElementGraph) :
    (g.components.filterMap List.head?).Sublist g.ids := by
  rw [components, List.filterMap_map]
  exact DisjointSets.firstItems_groups_sublist _ g.ids

/-- An element is in a component. -/
theorem exists_component {x : String} (hx : x ∈ g.ids) : ∃ members ∈ g.components, x ∈ members :=
  List.mem_flatten.1 (g.flatten_components_perm.mem_iff.2 hx)

/-- Taking elements away keeps the order of the others. -/
theorem ids_without_sublist (g : ElementGraph) (taken : List String) :
    (g.without taken).ids.Sublist g.ids :=
  List.filter_sublist.map Element.id

end Ontogram.ElementGraph

namespace Ontogram.ExecutionPlan

open ElementGraph OperationGraph

variable {drawing : Drawing} {settings : Settings} {ids : IdSource}

/-! ## The elements of components -/

theorem isolates_sublist (drawing : Drawing) (settings : Settings) (ids : IdSource) :
    (build drawing settings ids).1.isolates.Sublist drawing.elementIds := by
  rw [← ids_connected drawing settings ids]
  exact List.filter_sublist.map Element.id

/-- The elements of components are those that are no isolates. -/
theorem mem_plannedGraph_iff {x : String} :
    x ∈ (plannedGraph (build drawing settings ids).1).ids ↔
      x ∈ drawing.elementIds ∧ x ∉ (build drawing settings ids).1.isolates := by
  rw [plannedGraph, mem_ids_without, ids_build]

theorem plannedGraph_sublist (drawing : Drawing) (settings : Settings) (ids : IdSource) :
    (plannedGraph (build drawing settings ids).1).ids.Sublist drawing.elementIds := by
  rw [← ids_build drawing settings ids]
  exact ids_without_sublist _ _

theorem elementIds_nodup (drawing : Drawing) (settings : Settings) (ids : IdSource) :
    drawing.elementIds.Nodup := by
  rw [← ids_build drawing settings ids]
  exact (wellFormed_build drawing settings ids).ids_nodup

/-- **Each element is an isolate or in one component.** -/
theorem isolates_append_planned_perm (drawing : Drawing) (settings : Settings) (ids : IdSource) :
    ((build drawing settings ids).1.isolates ++
      (plannedGraph (build drawing settings ids).1).ids).Perm drawing.elementIds := by
  have hall := elementIds_nodup drawing settings ids
  have hnodup : ((build drawing settings ids).1.isolates ++
      (plannedGraph (build drawing settings ids).1).ids).Nodup := by
    refine (hall.sublist (isolates_sublist drawing settings ids)).append
      (wellFormed_plannedGraph drawing settings ids).ids_nodup ?_
    intro x hx hp
    exact (mem_plannedGraph_iff.1 hp).2 hx
  rw [List.perm_ext_iff_of_nodup hnodup hall]
  intro x
  rw [List.mem_append, mem_plannedGraph_iff]
  constructor
  · rintro (hx | hx)
    · exact (isolates_sublist drawing settings ids).subset hx
    · exact hx.1
  · intro hx
    by_cases hi : x ∈ (build drawing settings ids).1.isolates
    · exact Or.inl hi
    · exact Or.inr ⟨hx, hi⟩

/-! ## The components of a plan -/

theorem nodes_mem_components {o : OperationGraph} {c : ComponentPlan}
    (hc : c ∈ (ofGraph o).components) : c.nodes ∈ (plannedGraph o).components := by
  rw [← nodes_ofGraph]
  exact List.mem_map_of_mem hc

/-- Every element of the graph of a plan has a component. -/
theorem exists_component_of_mem {o : OperationGraph} {x : String}
    (hx : x ∈ (plannedGraph o).ids) : ∃ c ∈ (ofGraph o).components, x ∈ c.nodes := by
  obtain ⟨members, hm, hx⟩ := exists_component hx
  rw [← nodes_ofGraph] at hm
  obtain ⟨c, hc, rfl⟩ := List.mem_map.1 hm
  exact ⟨c, hc, hx⟩

/-- Two elements are in one component exactly if the edges connect them. -/
theorem same_component_iff {o : OperationGraph} (h : (plannedGraph o).WellFormed) {x : String}
    (hx : x ∈ (plannedGraph o).ids) (y : String) :
    (∃ c ∈ (ofGraph o).components, x ∈ c.nodes ∧ y ∈ c.nodes) ↔ (plannedGraph o).Connected x y := by
  constructor
  · rintro ⟨c, hc, hxc, hyc⟩
    exact (mem_component_iff h (nodes_mem_components hc) hxc).1 hyc
  · intro hxy
    obtain ⟨c, hc, hxc⟩ := exists_component_of_mem hx
    exact ⟨c, hc, hxc, (mem_component_iff h (nodes_mem_components hc) hxc).2 hxy⟩

theorem firstNodes_sublist (o : OperationGraph) :
    ((ofGraph o).components.filterMap fun c => c.nodes.head?).Sublist (plannedGraph o).ids := by
  have hheads := (plannedGraph o).components_heads_sublist
  rwa [← nodes_ofGraph, List.filterMap_map] at hheads

/--
**A plan partitions the elements of a diagram.**

What the drawing mentions is there once, as an isolate or in one component, and nothing else is. Two
elements are in one component exactly if edges connect them in the graph without the isolates. All
lists are in the order of first mention, and the components are in that of their first elements.
-/
theorem ofDrawing_partitions_elements (drawing : Drawing) (settings : Settings) (ids : IdSource) :
    let g := plannedGraph (build drawing settings ids).1
    let p := ofDrawing drawing settings ids
    drawing.elementIds.Nodup ∧
    (p.isolates ++ p.components.flatMap ComponentPlan.nodes).Perm drawing.elementIds ∧
    (∀ x ∈ drawing.elementIds, x ∉ p.isolates → ∀ y,
      (∃ c ∈ p.components, x ∈ c.nodes ∧ y ∈ c.nodes) ↔ g.Connected x y) ∧
    p.isolates.Sublist drawing.elementIds ∧
    (∀ c ∈ p.components, c.nodes ≠ [] ∧ c.nodes.Sublist drawing.elementIds) ∧
    (p.components.filterMap fun c => c.nodes.head?).Sublist drawing.elementIds := by
  intro g p
  have hg : g.WellFormed := wellFormed_plannedGraph drawing settings ids
  have hplanned := plannedGraph_sublist drawing settings ids
  refine ⟨elementIds_nodup drawing settings ids, ?_, fun x hx hi y => ?_,
    isolates_sublist drawing settings ids, fun c hc => ⟨?_, ?_⟩, ?_⟩
  · have hnodes : p.components.map ComponentPlan.nodes = g.components := nodes_ofGraph _
    rw [List.flatMap_def, hnodes]
    exact (g.flatten_components_perm.append_left _).trans
      (isolates_append_planned_perm drawing settings ids)
  · exact same_component_iff hg (mem_plannedGraph_iff.2 ⟨hx, hi⟩) y
  · exact component_ne_nil (nodes_mem_components hc)
  · exact (component_sublist (nodes_mem_components hc)).trans hplanned
  · exact (firstNodes_sublist _).trans hplanned

end Ontogram.ExecutionPlan
