import Mathlib.Data.List.Nodup
import Ontogram.Diagram.OperationGraph

/-!
# What holds of every operation graph

Elements have different ids, edges join elements, and a pair is joined by one edge at most. The
steps that build the graph of a diagram keep this, and so does taking elements away.

* `OperationGraph.wellFormed_build` — the graph of every diagram is well-formed.
-/

namespace Ontogram

namespace ElementGraph

/-- Different ids, edges between elements, and one edge at most for each pair. -/
structure WellFormed (g : ElementGraph) : Prop where
  ids_nodup : g.ids.Nodup
  ends_mem : ∀ e ∈ g.edges, e.parentId ∈ g.ids ∧ e.childId ∈ g.ids
  pairs_nodup : (g.edges.map OperationEdge.ends).Nodup

variable {g : ElementGraph}

theorem wellFormed_empty : WellFormed empty :=
  ⟨List.nodup_nil, nofun, List.nodup_nil⟩

theorem WellFormed.edges_nodup (h : g.WellFormed) : g.edges.Nodup :=
  List.Nodup.of_map _ h.pairs_nodup

/-- An edge is known by its pair. -/
theorem WellFormed.edge_unique (h : g.WellFormed) {e f : OperationEdge} (he : e ∈ g.edges)
    (hf : f ∈ g.edges) (hp : e.parentId = f.parentId) (hc : e.childId = f.childId) : e = f :=
  List.inj_on_of_nodup_map h.pairs_nodup he hf (by rw [OperationEdge.ends, hp, hc]; rfl)

/-! ## Elements -/

theorem contains_iff {id : String} : g.contains id = true ↔ id ∈ g.ids := by
  unfold contains element? ids
  rw [List.find?_isSome, List.mem_map]
  simp only [beq_iff_eq]

theorem mem_ids_ensure {id content x : String} :
    x ∈ (g.ensure id content).ids ↔ x ∈ g.ids ∨ x = id := by
  unfold ensure
  split
  · next h =>
    constructor
    · exact Or.inl
    · rintro (hx | rfl)
      · exact hx
      · exact contains_iff.1 h
  · simp [ids]

theorem edges_ensure (id content : String) : (g.ensure id content).edges = g.edges := by
  unfold ensure
  split <;> rfl

theorem WellFormed.ensure (h : g.WellFormed) (id content : String) :
    (g.ensure id content).WellFormed where
  ids_nodup := by
    unfold ElementGraph.ensure
    split
    · exact h.ids_nodup
    · next hc =>
      rw [contains_iff] at hc
      rw [ids, List.map_append]
      exact h.ids_nodup.append (List.nodup_singleton _) (by simpa [ids] using hc)
  ends_mem := by
    intro e he
    rw [edges_ensure] at he
    obtain ⟨hp, hc⟩ := h.ends_mem e he
    exact ⟨mem_ids_ensure.2 (Or.inl hp), mem_ids_ensure.2 (Or.inl hc)⟩
  pairs_nodup := by
    rw [edges_ensure]
    exact h.pairs_nodup

/-! ## Edges -/

theorem joins_iff {e : OperationEdge} {p c : String} :
    e.joins p c = true ↔ e.ends = (p, c) := by
  simp [OperationEdge.joins, OperationEdge.ends]

theorem containsEdge_iff {p c : String} :
    g.containsEdge p c = true ↔ (p, c) ∈ g.edges.map OperationEdge.ends := by
  unfold containsEdge
  rw [List.any_eq_true, List.mem_map]
  simp only [joins_iff]

theorem elements_putEdge (e : OperationEdge) : (g.putEdge e).elements = g.elements := by
  unfold putEdge
  split <;> rfl

theorem ids_putEdge (e : OperationEdge) : (g.putEdge e).ids = g.ids :=
  congrArg (List.map Element.id) (elements_putEdge e)

theorem mem_edges_putEdge {e f : OperationEdge} (hf : f ∈ (g.putEdge e).edges) :
    f = e ∨ f ∈ g.edges := by
  unfold putEdge at hf
  split at hf
  · obtain ⟨f', hf', he⟩ := List.mem_map.1 hf
    split at he
    · exact Or.inl he.symm
    · exact Or.inr (he ▸ hf')
  · rcases List.mem_append.1 hf with hf | hf
    · exact Or.inr hf
    · exact Or.inl (List.mem_singleton.1 hf)

/-- Putting an edge changes no pair; it comes last if its own is new. -/
theorem ends_putEdge (e : OperationEdge) :
    (g.putEdge e).edges.map OperationEdge.ends =
      if g.containsEdge e.parentId e.childId then g.edges.map OperationEdge.ends
      else g.edges.map OperationEdge.ends ++ [e.ends] := by
  unfold putEdge
  split
  · rw [List.map_map]
    refine List.map_congr_left fun f _ => ?_
    rw [Function.comp_apply]
    split
    · next hf => exact (joins_iff.1 hf).symm
    · rfl
  · rw [List.map_append, List.map_singleton]

theorem WellFormed.putEdge (h : g.WellFormed) {e : OperationEdge} (hp : e.parentId ∈ g.ids)
    (hc : e.childId ∈ g.ids) : (g.putEdge e).WellFormed where
  ids_nodup := by
    rw [ids_putEdge]
    exact h.ids_nodup
  ends_mem := by
    intro f hf
    rw [ids_putEdge]
    rcases mem_edges_putEdge hf with rfl | hf
    · exact ⟨hp, hc⟩
    · exact h.ends_mem f hf
  pairs_nodup := by
    rw [ends_putEdge]
    split
    · exact h.pairs_nodup
    · next hn =>
      rw [containsEdge_iff] at hn
      exact h.pairs_nodup.append (List.nodup_singleton _) (by simpa [OperationEdge.ends] using hn)

/-! ## Taking elements away -/

theorem mem_ids_without {taken : List String} {x : String} :
    x ∈ (g.without taken).ids ↔ x ∈ g.ids ∧ x ∉ taken := by
  simp only [without, ids, List.mem_map, List.mem_filter, Bool.not_eq_true', List.contains_eq_mem,
    decide_eq_false_iff_not]
  constructor
  · rintro ⟨e, ⟨he, hn⟩, rfl⟩
    exact ⟨⟨e, he, rfl⟩, hn⟩
  · rintro ⟨⟨e, he, rfl⟩, hn⟩
    exact ⟨e, ⟨he, hn⟩, rfl⟩

theorem mem_edges_without {taken : List String} {e : OperationEdge} :
    e ∈ (g.without taken).edges ↔ e ∈ g.edges ∧ e.parentId ∉ taken ∧ e.childId ∉ taken := by
  simp [without]

theorem WellFormed.without (h : g.WellFormed) (taken : List String) :
    (g.without taken).WellFormed where
  ids_nodup := h.ids_nodup.sublist (List.filter_sublist.map _)
  ends_mem := by
    intro e he
    obtain ⟨he, hp, hc⟩ := mem_edges_without.1 he
    exact ⟨mem_ids_without.2 ⟨(h.ends_mem e he).1, hp⟩, mem_ids_without.2 ⟨(h.ends_mem e he).2, hc⟩⟩
  pairs_nodup := h.pairs_nodup.sublist (List.filter_sublist.map _)

end ElementGraph

/-! ## Building -/

namespace OperationGraph

open ElementGraph

variable {g : ElementGraph}

theorem wellFormed_addDrawn (settings : Settings) (h : g.WellFormed) (r : DrawnRelation) :
    (addDrawn settings g r).WellFormed := by
  have hg := (h.ensure r.parentId r.parent).ensure r.childId r.child
  unfold addDrawn
  simp only
  split
  · exact hg
  · refine hg.putEdge ?_ ?_
    · exact mem_ids_ensure.2 (Or.inl (mem_ids_ensure.2 (Or.inr rfl)))
    · exact mem_ids_ensure.2 (Or.inr rfl)

/-- Adding what is related to an element keeps the element. -/
theorem wellFormed_addRelated {nodeId : String} {s : ElementGraph × IdSource}
    (h : s.1.WellFormed ∧ nodeId ∈ s.1.ids) (r : RelatedLabel) :
    (addRelated nodeId s r).1.WellFormed ∧ nodeId ∈ (addRelated nodeId s r).1.ids := by
  unfold addRelated
  split
  · have hn : nodeId ∈ (s.1.ensure r.id r.label).ids := mem_ids_ensure.2 (Or.inl h.2)
    refine ⟨(h.1.ensure r.id r.label).putEdge hn (mem_ids_ensure.2 (Or.inr rfl)), ?_⟩
    rw [ids_putEdge]
    exact hn
  · exact h

theorem wellFormed_addDesignation {s : ElementGraph × IdSource} (h : s.1.WellFormed)
    (d : Designation) : (addDesignation s d).1.WellFormed := by
  unfold addDesignation
  have hn : d.nodeId ∈ (s.1.ensure d.nodeId d.label).ids := mem_ids_ensure.2 (Or.inr rfl)
  exact (List.foldlRecOn (motive := fun s : ElementGraph × IdSource =>
    s.1.WellFormed ∧ d.nodeId ∈ s.1.ids) d.related (addRelated d.nodeId)
    ⟨h.ensure d.nodeId d.label, hn⟩ fun _ hs r _ => wellFormed_addRelated hs r).1

theorem wellFormed_connected (drawing : Drawing) (settings : Settings) (ids : IdSource) :
    (connected drawing settings ids).1.WellFormed := by
  unfold connected
  have hdrawn : (drawing.relations.foldl (addDrawn settings) .empty).WellFormed :=
    List.foldlRecOn (motive := WellFormed) _ _ wellFormed_empty fun _ hg r _ =>
      wellFormed_addDrawn settings hg r
  exact List.foldlRecOn (motive := fun s : ElementGraph × IdSource => s.1.WellFormed) _ _ hdrawn
    fun _ hs d _ => wellFormed_addDesignation hs d

/-- Binding from a container keeps the elements. -/
theorem wellFormed_bindFromArea {rootId : String} {s : ElementGraph × IdSource}
    (h : s.1.WellFormed ∧ rootId ∈ s.1.ids) (areaId : String) :
    (bindFromArea rootId s areaId).1.WellFormed ∧
      rootId ∈ (bindFromArea rootId s areaId).1.ids := by
  unfold bindFromArea
  simp only
  split
  · next hc =>
    rw [Bool.and_eq_true, contains_iff] at hc
    refine ⟨h.1.putEdge hc.1 h.2, ?_⟩
    rw [ids_putEdge]
    exact h.2
  · exact h

theorem wellFormed_bindInnermost (roots : List String) {s : ElementGraph × IdSource}
    (h : s.1.WellFormed) (m : AreaMembership) : (bindInnermost roots s m).1.WellFormed := by
  unfold bindInnermost
  split
  · next hc =>
    rw [Bool.and_eq_true, contains_iff] at hc
    exact (List.foldlRecOn (motive := fun s : ElementGraph × IdSource =>
      s.1.WellFormed ∧ m.nodeId ∈ s.1.ids) m.areaIds (bindFromArea m.nodeId) ⟨h, hc.2⟩
      fun _ hs a _ => wellFormed_bindFromArea hs a).1
  · exact h

/-- **The graph of every diagram is well-formed.** -/
theorem wellFormed_build (drawing : Drawing) (settings : Settings) (ids : IdSource) :
    (build drawing settings ids).1.graph.WellFormed := by
  unfold build
  exact List.foldlRecOn (motive := fun s : ElementGraph × IdSource => s.1.WellFormed) _ _
    (wellFormed_connected drawing settings ids) fun _ hs m _ => wellFormed_bindInnermost _ hs m

end OperationGraph

end Ontogram
