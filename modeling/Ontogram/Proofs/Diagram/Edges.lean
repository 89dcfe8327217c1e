import Ontogram.Proofs.Diagram.Containers

/-!
# What the edges of a diagram join

The edges of an operation graph come from three parts of a drawing: from its rows that are not
secondary, from the containers that designations connect, and from the containers that component
roots are drawn inside of. A later edge takes the place of an earlier one of the same pair, so which
pairs are joined can be read off the drawing, whatever the order.

* `edge_connected_iff` — rows and designations.
* `edge_build_iff` — with the binds from containers.
* `edge_plannedGraph_iff` — once the isolates are gone.
-/

namespace Ontogram

namespace Drawing

/-- A row that is not secondary or a designation leads from an element to another. -/
def Draws (d : Drawing) (settings : Settings) (a b : String) : Prop :=
  (∃ r ∈ d.relations, settings.isSecondary r.rel = false ∧ r.parentId = a ∧ r.childId = b) ∨
    d.Connects a b

/-- An element is drawn inside of a container. -/
def DrawnInside (d : Drawing) (x a : String) : Prop :=
  ∃ m ∈ d.areas, m.nodeId = x ∧ a ∈ m.areaIds

end Drawing

namespace OperationGraph

open ElementGraph ExecutionPlan

variable {drawing : Drawing} {settings : Settings} {ids : IdSource} {a b r : String}

/-- A component root is bound from a container that it is drawn inside of, if the container is an
element and no designation connects it to another container. -/
structure Binds (drawing : Drawing) (roots : List String) (a r : String) : Prop where
  root : r ∈ roots
  inside : drawing.DrawnInside r a
  element : a ∈ drawing.elementIds
  innermost : ¬∃ c, drawing.Connects a c

theorem containsEdge_iff_edge {g : ElementGraph} : g.containsEdge a b = true ↔ g.Edge a b := by
  rw [containsEdge_iff, List.mem_map]
  refine exists_congr fun e => and_congr_right fun _ => ?_
  rw [OperationEdge.ends, Prod.mk.injEq]

/-! ## Rows and designations -/

/-- **The rows and the designations decide what is joined before binds come.** -/
theorem edge_connected_iff :
    (connected drawing settings ids).1.Edge a b ↔ drawing.Draws settings a b := by
  obtain ⟨cs, hcs, hpairs, -⟩ := exists_edges_connected drawing settings ids
  have hconnects : drawing.Connects a b ↔ ∃ e ∈ cs, e.ends = (a, b) := by
    rw [← List.mem_map, hpairs]
    simp only [List.mem_flatMap, mem_connectionsOf, Drawing.Connects]
  rw [Drawing.Draws, hconnects]
  constructor
  · rintro ⟨e, he, rfl, rfl⟩
    rw [hcs] at he
    rcases List.mem_append.1 ((mem_of_mem_foldl_put he).resolve_right List.not_mem_nil) with he | he
    · obtain ⟨r, hr, hs, rfl⟩ := mem_drawnEdges.1 he
      exact Or.inl ⟨r, hr, hs, rfl, rfl⟩
    · exact Or.inr ⟨e, he, rfl⟩
  · intro h
    have hput : ∃ e ∈ drawnEdges settings drawing.relations ++ cs, e.ends = (a, b) := by
      rcases h with ⟨r, hr, hs, rfl, rfl⟩ | ⟨e, he, hends⟩
      · exact ⟨drawnEdge r, List.mem_append_left cs (mem_drawnEdges.2 ⟨r, hr, hs, rfl⟩), rfl⟩
      · exact ⟨e, List.mem_append_right _ he, hends⟩
    obtain ⟨e, he, hends⟩ := hput
    obtain ⟨f, hf, hfe⟩ : ∃ f ∈ (drawnEdges settings drawing.relations ++ cs).foldl put [],
        f.ends = e.ends := exists_mem_foldl_put (Or.inl he)
    rw [← hcs] at hf
    obtain ⟨hp, hc⟩ := Prod.mk.inj (hfe.trans hends)
    exact ⟨f, hf, hp, hc⟩

/-! ## Binds from containers -/

theorem boundFrom_build (drawing : Drawing) (settings : Settings) (ids : IdSource) :
    BoundFrom (drawing.areas.flatMap (listedPairs (build drawing settings ids).1.componentRoots))
      (connected drawing settings ids).1 (build drawing settings ids).1.graph :=
  boundFrom_foldl (fun _ m hs => boundFrom_bindInnermost hs m) drawing.areas
    (rooted_connected drawing settings ids)

/-- **What is joined in the end**: what was joined before, and the binds of component roots. -/
theorem edge_build_iff : (build drawing settings ids).1.graph.Edge a b ↔
    drawing.Draws settings a b ∨
      Binds drawing (build drawing settings ids).1.componentRoots a b := by
  have hlisted : ∀ {roots : List String}, (a, b) ∈ drawing.areas.flatMap (listedPairs roots) ↔
      b ∈ roots ∧ drawing.DrawnInside b a := by
    intro roots
    simp only [List.mem_flatMap, mem_listedPairs, Drawing.DrawnInside]
    grind
  have hbound := (boundFrom_build drawing settings ids).containsEdge a b
  rw [containsEdge_iff_edge, containsEdge_iff_edge, edge_connected_iff, hlisted, ids_connected,
    Bool.eq_false_iff, ne_eq, hasNestedAreas_connected] at hbound
  rw [hbound]
  refine or_congr_right ⟨?_, ?_⟩
  · rintro ⟨⟨hr, hin⟩, ha, hc⟩
    exact ⟨hr, hin, ha, hc⟩
  · rintro ⟨hr, hin, ha, hc⟩
    exact ⟨⟨hr, hin⟩, ha, hc⟩

/-- A component root is no isolate. -/
theorem notMem_isolates_of_root (hr : r ∈ (build drawing settings ids).1.componentRoots) :
    r ∉ (build drawing settings ids).1.isolates := by
  show r ∉ isolatesOf (connected drawing settings ids).1
  have hroot : r ∈ componentRootsOf (connected drawing settings ids).1 := hr
  simpa using (List.mem_filter.1 hroot).2

/-- What rows and designations join are no isolates. -/
theorem notMem_isolates_of_draws (h : drawing.Draws settings a b) :
    a ∉ (build drawing settings ids).1.isolates ∧
      b ∉ (build drawing settings ids).1.isolates := by
  have hedge : (connected drawing settings ids).1.Edge a b := edge_connected_iff.2 h
  obtain ⟨e, he, rfl, rfl⟩ := hedge
  exact notMem_isolates he

/-- **What is joined once the isolates are gone.** -/
theorem edge_plannedGraph_iff : (plannedGraph (build drawing settings ids).1).Edge a b ↔
    drawing.Draws settings a b ∨
      Binds drawing (build drawing settings ids).1.componentRoots a b ∧
        a ∉ (build drawing settings ids).1.isolates := by
  have hwithout : (plannedGraph (build drawing settings ids).1).Edge a b ↔
      (build drawing settings ids).1.graph.Edge a b ∧
        a ∉ (build drawing settings ids).1.isolates ∧
        b ∉ (build drawing settings ids).1.isolates := by
    constructor
    · rintro ⟨e, he, rfl, rfl⟩
      obtain ⟨he, hends⟩ := mem_edges_without.1 he
      exact ⟨.of_mem he, hends⟩
    · rintro ⟨⟨e, he, rfl, rfl⟩, hends⟩
      exact .of_mem (mem_edges_without.2 ⟨he, hends⟩)
  rw [hwithout, edge_build_iff, or_and_right]
  refine or_congr (and_iff_left_of_imp notMem_isolates_of_draws) ?_
  exact and_congr_right fun h => and_iff_left (notMem_isolates_of_root h.root)

end OperationGraph

end Ontogram
