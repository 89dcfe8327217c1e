import Ontogram.Proofs.Diagram.ElementGraph
import Ontogram.Proofs.DisjointSets
import Ontogram.Proofs.Search

/-!
# Components and what a root leads to

The components of a well-formed graph are the classes of its elements under the equivalence that the
edges generate, each class once. A search along the edges stays among the elements, so it finds
exactly what an element leads to.

* `flatten_components_perm` — each element is in one component.
* `mem_component_iff` — a component has everything that is connected to one of its elements.
* `mem_reached_iff` — what a search finds.
-/

namespace Ontogram.ElementGraph

variable {g : ElementGraph}

/-- Says that an edge leads from an element to another. -/
def Edge (g : ElementGraph) (a b : String) : Prop :=
  ∃ e ∈ g.edges, e.parentId = a ∧ e.childId = b

/-- Says that edges lead from an element to another, if only because both are the same. -/
def Leads (g : ElementGraph) : String → String → Prop :=
  Relation.ReflTransGen g.Edge

/-- Says that edges join two elements, whatever their direction. -/
def Connected (g : ElementGraph) : String → String → Prop :=
  Relation.EqvGen g.Edge

theorem Edge.of_mem {e : OperationEdge} (he : e ∈ g.edges) : g.Edge e.parentId e.childId :=
  ⟨e, he, rfl, rfl⟩

theorem Leads.connected {a b : String} (h : g.Leads a b) : g.Connected a b :=
  Relation.EqvGen.reflTransGen_le_eqvGen _ a b h

theorem WellFormed.mem_ids_of_edge (h : g.WellFormed) {a b : String} (he : g.Edge a b) :
    a ∈ g.ids ∧ b ∈ g.ids := by
  obtain ⟨e, he, rfl, rfl⟩ := he
  exact h.ends_mem e he

theorem WellFormed.mem_ids_of_connected (h : g.WellFormed) {a b : String}
    (hc : g.Connected a b) : a ∈ g.ids ↔ b ∈ g.ids := by
  induction hc with
  | rel a b he => simp [h.mem_ids_of_edge he]
  | refl => exact Iff.rfl
  | symm _ _ _ ih => exact ih.symm
  | trans _ _ _ _ _ ih₁ ih₂ => exact ih₁.trans ih₂

/-! ## Components -/

theorem paired_ends : DisjointSets.Paired (g.edges.map OperationEdge.ends) = g.Edge := by
  funext a b
  simp [DisjointSets.Paired, Edge, OperationEdge.ends]

/-- **Each element is in one component.** -/
theorem flatten_components_perm (g : ElementGraph) : g.components.flatten.Perm g.ids := by
  rw [components, ← List.flatMap_def]
  exact DisjointSets.flatMap_groups_perm _ _

theorem component_ne_nil {members : List String} (hm : members ∈ g.components) :
    members ≠ [] := by
  obtain ⟨group, hg, rfl⟩ := List.mem_map.1 hm
  exact (DisjointSets.grouped_groups _ _).ne_nil group hg

theorem mem_ids_of_mem_component {members : List String} (hm : members ∈ g.components) {x : String}
    (hx : x ∈ members) : x ∈ g.ids :=
  g.flatten_components_perm.mem_iff.1 (List.mem_flatten.2 ⟨members, hm, hx⟩)

/-- **A component has everything that is connected to one of its elements.** -/
theorem mem_component_iff (h : g.WellFormed) {members : List String} (hm : members ∈ g.components)
    {x : String} (hx : x ∈ members) {y : String} : y ∈ members ↔ g.Connected x y := by
  have hxi := mem_ids_of_mem_component hm hx
  obtain ⟨group, hg, rfl⟩ := List.mem_map.1 hm
  rw [DisjointSets.mem_group_iff hg] at hx ⊢
  rw [← hx.2, Connected, ← paired_ends, ← DisjointSets.find_ofPairs_eq_iff]
  constructor
  · rintro ⟨-, hy⟩
    exact hy.symm
  · intro hy
    refine ⟨(h.mem_ids_of_connected ?_).1 hxi, hy.symm⟩
    rwa [Connected, ← paired_ends, ← DisjointSets.find_ofPairs_eq_iff]

/-- Both ends of an edge are in a component, or none. -/
theorem mem_component_of_edge (h : g.WellFormed) {members : List String}
    (hm : members ∈ g.components) {e : OperationEdge} (he : e ∈ g.edges) :
    e.parentId ∈ members ↔ e.childId ∈ members := by
  have hc : g.Connected e.parentId e.childId := .rel _ _ (Edge.of_mem he)
  constructor
  · intro hp
    exact (mem_component_iff h hm hp).2 hc
  · intro hp
    exact (mem_component_iff h hm hp).2 hc.symm

/-- The edges between some elements. -/
def edgesIn (g : ElementGraph) (members : List String) : List OperationEdge :=
  g.edges.filter fun e => members.contains e.parentId && members.contains e.childId

theorem mem_edgesIn {members : List String} {e : OperationEdge} :
    e ∈ g.edgesIn members ↔ e ∈ g.edges ∧ e.parentId ∈ members ∧ e.childId ∈ members := by
  simp [edgesIn]

theorem WellFormed.edgesIn_nodup (h : g.WellFormed) (members : List String) :
    (g.edgesIn members).Nodup :=
  h.edges_nodup.filter _

/-- **Each edge is in one component.** -/
theorem flatMap_edgesIn_perm (h : g.WellFormed) :
    (g.components.flatMap g.edgesIn).Perm g.edges := by
  have hflat : g.components.flatten.Nodup := g.flatten_components_perm.nodup_iff.2 h.ids_nodup
  have hd := (List.nodup_flatten.1 hflat).2
  have hnd : (g.components.flatMap g.edgesIn).Nodup := by
    rw [List.nodup_flatMap]
    refine ⟨fun members _ => h.edgesIn_nodup members, hd.imp ?_⟩
    intro xs ys hxy e hx hy
    exact hxy (mem_edgesIn.1 hx).2.1 (mem_edgesIn.1 hy).2.1
  rw [List.perm_ext_iff_of_nodup hnd h.edges_nodup]
  intro e
  constructor
  · intro he
    obtain ⟨members, -, he⟩ := List.mem_flatMap.1 he
    exact (mem_edgesIn.1 he).1
  · intro he
    have hp := g.flatten_components_perm.mem_iff.2 (h.ends_mem e he).1
    obtain ⟨members, hm, hp⟩ := List.mem_flatten.1 hp
    have hc := (mem_component_of_edge h hm he).1 hp
    exact List.mem_flatMap.2 ⟨members, hm, mem_edgesIn.2 ⟨he, hp, hc⟩⟩

/-! ## The head of a component -/

theorem hasIncoming_iff {id : String} : g.hasIncoming id = true ↔ ∃ a, g.Edge a id := by
  unfold hasIncoming
  simp only [List.any_eq_true, beq_iff_eq, Edge]
  constructor
  · rintro ⟨e, he, rfl⟩
    exact ⟨e.parentId, e, he, rfl, rfl⟩
  · rintro ⟨-, e, he, -, hc⟩
    exact ⟨e, he, hc⟩

theorem head?_eq_some {members : List String} {root : String} (hr : g.head? members = some root) :
    root ∈ members ∧ ¬∃ a, g.Edge a root := by
  refine ⟨List.mem_of_find?_eq_some hr, ?_⟩
  rw [← hasIncoming_iff]
  simpa using List.find?_some hr

theorem head?_eq_none {members : List String} (hr : g.head? members = none) :
    ∀ id ∈ members, ∃ a, g.Edge a id := by
  intro id hid
  rw [← hasIncoming_iff]
  simpa using List.find?_eq_none.1 hr id hid

/-! ## What an element leads to -/

theorem mem_outgoing {id : String} {e : OperationEdge} :
    e ∈ g.outgoing id ↔ e ∈ g.edges ∧ e.parentId = id := by
  simp [outgoing]

theorem mem_successors {a b : String} : b ∈ g.successors a ↔ g.Edge a b := by
  simp only [successors, List.mem_map, mem_outgoing, Edge, and_assoc]

theorem reaches_successors : Search.Reaches g.successors = g.Leads := by
  unfold Search.Reaches Leads
  congr 1
  funext a b
  exact propext mem_successors

/-- **A search along the edges finds what an element leads to.** -/
theorem mem_reached_iff (h : g.WellFormed) {a : String} (ha : a ∈ g.ids) {b : String} :
    b ∈ Search.reached g.successors g.elements.length a ↔ g.Leads a b := by
  rw [← reaches_successors]
  have hground : ∀ x, Search.Reaches g.successors a x → x ∈ g.ids := by
    intro x hx
    rw [reaches_successors] at hx
    exact (h.mem_ids_of_connected hx.connected).1 ha
  exact Search.mem_reached hground (Nat.le_of_eq (List.length_map _))

end Ontogram.ElementGraph
