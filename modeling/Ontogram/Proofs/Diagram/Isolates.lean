import Ontogram.Proofs.Diagram.Edges

/-!
# Isolates and the binds from containers

Isolates are told before component roots are bound from containers. A container that is marked as
one is never an isolate, but an area may name any element, and a component root is bound from that
one too. So an isolate may come to have edges, and they go away with it.

* `ElementGraph.StandsAlone` — what an isolate of a finished graph would be.
* `mem_isolates_iff_standsAlone_connected` — isolates stand alone before the binds.
* `isolates_standAlone_iff` — they still do if and only if no component root is drawn inside of one.
-/

namespace Ontogram

/-- An element stands alone if it is marked as no container and no edge joins it. -/
structure ElementGraph.StandsAlone (g : ElementGraph) (id : String) : Prop where
  unmarked : ∃ e ∈ g.elements, e.id = id ∧ Label.isContainer e.content = false
  apart : ∀ e ∈ g.edges, e.parentId ≠ id ∧ e.childId ≠ id

namespace OperationGraph

open ElementGraph ExecutionPlan

variable {drawing : Drawing} {settings : Settings} {ids : IdSource} {g g' : ElementGraph}
  {id : String}

/-! ## Before the binds -/

theorem isEmpty_neighbours_iff :
    (g.neighbours id).isEmpty = true ↔ ∀ e ∈ g.edges, e.parentId ≠ id ∧ e.childId ≠ id := by
  rw [List.isEmpty_iff, neighbours, List.filterMap_eq_nil_iff]
  refine forall₂_congr fun e _ => ?_
  by_cases hp : e.parentId = id
  · simp [hp]
  · by_cases hc : e.childId = id <;> simp [hp, hc]

theorem mem_isolatesOf : id ∈ isolatesOf g ↔ g.StandsAlone id := by
  simp only [isolatesOf, List.mem_map, List.mem_filter, Bool.and_eq_true, Bool.not_eq_true',
    isEmpty_neighbours_iff]
  constructor
  · rintro ⟨e, ⟨he, hapart, hmark⟩, rfl⟩
    exact ⟨⟨e, he, rfl, hmark⟩, hapart⟩
  · rintro ⟨⟨e, he, rfl, hmark⟩, hapart⟩
    exact ⟨e, ⟨he, hapart, hmark⟩, rfl⟩

/-- **The isolates stand alone before the binds, and nothing else does.** -/
theorem mem_isolates_iff_standsAlone_connected :
    id ∈ (build drawing settings ids).1.isolates ↔
      (connected drawing settings ids).1.StandsAlone id :=
  mem_isolatesOf

/-! ## After the binds -/

theorem apart_iff :
    (∀ e ∈ g.edges, e.parentId ≠ id ∧ e.childId ≠ id) ↔ ∀ a, ¬g.Edge id a ∧ ¬g.Edge a id := by
  constructor
  · refine fun h a => ⟨?_, ?_⟩
    · rintro ⟨e, he, hp, -⟩
      exact (h e he).1 hp
    · rintro ⟨e, he, -, hc⟩
      exact (h e he).2 hc
  · intro h e he
    exact ⟨fun hp => (h e.childId).1 ⟨e, he, hp, rfl⟩, fun hc => (h e.parentId).2 ⟨e, he, rfl, hc⟩⟩

/-- An isolate binds each component root that is drawn inside of it. -/
theorem binds_of_mem_isolates {a r : String}
    (ha : a ∈ (build drawing settings ids).1.isolates)
    (hr : r ∈ (build drawing settings ids).1.componentRoots) (hin : drawing.DrawnInside r a) :
    Binds drawing (build drawing settings ids).1.componentRoots a r where
  root := hr
  inside := hin
  element := by
    obtain ⟨⟨e, he, rfl, -⟩, -⟩ := mem_isolates_iff_standsAlone_connected.1 ha
    exact ids_connected drawing settings ids ▸ List.mem_map_of_mem he
  innermost := by
    rintro ⟨c, hc⟩
    exact (notMem_isolates_of_draws (Or.inr hc)).1 ha

/-- **What stands alone after the binds**: the isolates that no component root is drawn inside
of. -/
theorem standsAlone_build_iff : (build drawing settings ids).1.graph.StandsAlone id ↔
    id ∈ (build drawing settings ids).1.isolates ∧
      ∀ r ∈ (build drawing settings ids).1.componentRoots, ¬drawing.DrawnInside r id := by
  rw [mem_isolates_iff_standsAlone_connected]
  constructor
  · rintro ⟨hmark, hapart⟩
    rw [elements_build] at hmark
    rw [apart_iff] at hapart
    have halone : (connected drawing settings ids).1.StandsAlone id := by
      refine ⟨hmark, apart_iff.2 fun a => ⟨fun h => ?_, fun h => ?_⟩⟩
      · exact (hapart a).1 (edge_build_iff.2 (Or.inl (edge_connected_iff.1 h)))
      · exact (hapart a).2 (edge_build_iff.2 (Or.inl (edge_connected_iff.1 h)))
    refine ⟨halone, fun r hr hin => (hapart r).1 (edge_build_iff.2 (Or.inr ?_))⟩
    exact binds_of_mem_isolates (mem_isolates_iff_standsAlone_connected.2 halone) hr hin
  · rintro ⟨halone, hout⟩
    have hi := mem_isolates_iff_standsAlone_connected.2 halone
    refine ⟨elements_build drawing settings ids ▸ halone.unmarked, apart_iff.2 fun a => ⟨?_, ?_⟩⟩
    · intro h
      rcases edge_build_iff.1 h with hd | hb
      · exact (notMem_isolates_of_draws hd).1 hi
      · exact hout a hb.root hb.inside
    · intro h
      rcases edge_build_iff.1 h with hd | hb
      · exact (notMem_isolates_of_draws hd).2 hi
      · exact notMem_isolates_of_root hb.root hi

/-- **Which edges go away with the isolates**: the binds of component roots from isolates that they
are drawn inside of. -/
theorem notMem_plannedGraph_iff {e : OperationEdge}
    (he : e ∈ (build drawing settings ids).1.graph.edges) :
    e ∉ (plannedGraph (build drawing settings ids).1).edges ↔
      e.parentId ∈ (build drawing settings ids).1.isolates ∧
        e.childId ∈ (build drawing settings ids).1.componentRoots ∧
        drawing.DrawnInside e.childId e.parentId := by
  rw [plannedGraph, mem_edges_without, and_iff_right he, not_and_or, not_not, not_not]
  rcases edge_build_iff.1 (.of_mem he) with hd | hb
  · have hkept : e.parentId ∉ (build drawing settings ids).1.isolates ∧
        e.childId ∉ (build drawing settings ids).1.isolates := notMem_isolates_of_draws hd
    exact iff_of_false (not_or.2 hkept) fun h => hkept.1 h.1
  · have hchild := notMem_isolates_of_root hb.root
    rw [or_iff_left hchild, and_iff_left ⟨hb.root, hb.inside⟩]

/--
**When isolates are the elements that stand alone.**

After the binds, the elements that stand alone are the isolates that no component root is drawn
inside of. The edges that go away with the isolates are the binds of component roots from isolates
that they are drawn inside of. So isolates are all that stands alone, and none of the edges goes
away, if and only if no component root is drawn inside of an isolate.
-/
theorem isolates_standAlone_iff (drawing : Drawing) (settings : Settings) (ids : IdSource) :
    let o := (build drawing settings ids).1
    (∀ id, o.graph.StandsAlone id ↔
      id ∈ o.isolates ∧ ∀ r ∈ o.componentRoots, ¬drawing.DrawnInside r id) ∧
    (∀ e ∈ o.graph.edges, e ∉ (plannedGraph o).edges ↔
      e.parentId ∈ o.isolates ∧ e.childId ∈ o.componentRoots ∧
        drawing.DrawnInside e.childId e.parentId) ∧
    (((∀ id, id ∈ o.isolates ↔ o.graph.StandsAlone id) ∧
        (plannedGraph o).edges = o.graph.edges) ↔
      ∀ id ∈ o.isolates, ∀ r ∈ o.componentRoots, ¬drawing.DrawnInside r id) := by
  intro o
  refine ⟨fun _ => standsAlone_build_iff, fun _ => notMem_plannedGraph_iff, ?_, ?_⟩
  · rintro ⟨halone, -⟩ id hid
    exact (standsAlone_build_iff.1 ((halone id).1 hid)).2
  · intro hout
    refine ⟨fun id => ⟨fun hid => standsAlone_build_iff.2 ⟨hid, hout id hid⟩, fun h =>
      (standsAlone_build_iff.1 h).1⟩, ?_⟩
    have hkept : ∀ e ∈ o.graph.edges, e ∈ (plannedGraph o).edges := by
      intro e he
      by_contra hgone
      obtain ⟨hi, hr, hin⟩ := (notMem_plannedGraph_iff he).1 hgone
      exact hout e.parentId hi e.childId hr hin
    rw [plannedGraph, ElementGraph.without, List.filter_eq_self]
    intro e he
    simpa using (mem_edges_without.1 (hkept e he)).2

/-- A component root inside of an element that nothing else is related to. -/
def occupied : Drawing :=
  ((Drawing.empty.relate "a" "A[T|t_]" "mds:define" "c" "5(v_)").designate "s" "S[T|t_]"
    []).inside "a" ["s"]

/-- The element is an isolate though the root is bound from it, and the bind goes away with it. -/
theorem isolates_standAlone_iff_occupied :
    let o := (build occupied .standard (.ofHeader "gen")).1
    o.isolates = ["s"] ∧ o.componentRoots = ["a"] ∧ o.graph.containsEdge "s" "a" = true ∧
      ¬o.graph.StandsAlone "s" ∧ (∃ e ∈ o.graph.edges, e ∉ (plannedGraph o).edges) := by
  intro o
  have hisolates : o.isolates = ["s"] := by decide +kernel
  have hroots : o.componentRoots = ["a"] := by decide +kernel
  have hedge : o.graph.containsEdge "s" "a" = true := by decide +kernel
  have hin : occupied.DrawnInside "a" "s" :=
    ⟨_, List.mem_singleton_self _, rfl, List.mem_singleton_self _⟩
  obtain ⟨halone, hgone, -⟩ := isolates_standAlone_iff occupied .standard (.ofHeader "gen")
  obtain ⟨e, he, hp, hc⟩ := containsEdge_iff_edge.1 hedge
  refine ⟨hisolates, hroots, hedge, fun h => ?_, e, he, (hgone e he).2 ?_⟩
  · exact ((halone "s").1 h).2 "a" (hroots ▸ List.mem_singleton_self _) hin
  · rw [hp, hc]
    exact ⟨hisolates ▸ List.mem_singleton_self _, hroots ▸ List.mem_singleton_self _, hin⟩

end OperationGraph

end Ontogram
