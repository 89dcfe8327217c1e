import Ontogram.Proofs.Diagram.Containers
import Ontogram.Proofs.Diagram.Order

/-!
# The schedule of a component

The operations of a component stand in the order of three keys: heavier operations come first, of
equal ones those whose parent is farther from the root, and of those with one parent the one whose
pair was joined later. The first key is what the sort looks at. The other two are the order in which
the search finds the edges, read backwards, and the sort leaves it to operations of one weight.

* `JoinedBefore`, `joinedPairs` — when a build joins which pair first.
* `pairwise_joinedBefore_build` — the edges of an element stand in the order of the pairs.
* `FoundBefore`, `pairwise_foundBefore_edgesFrom` — the order of the search.
* `operations_scheduled` — the three keys.
-/

namespace Ontogram

/-- Says that the first time that a pair is joined is before the first time that another one is. -/
def JoinedBefore (pairs : List (String × String)) (p q : String × String) : Prop :=
  q ∈ pairs ∧ pairs.idxOf p < pairs.idxOf q

theorem JoinedBefore.append {pairs : List (String × String)} {p q : String × String}
    (h : JoinedBefore pairs p q) (more : List (String × String)) :
    JoinedBefore (pairs ++ more) p q := by
  have hp : p ∈ pairs := List.idxOf_lt_length_iff.1 (Nat.lt_of_lt_of_le h.2 List.idxOf_le_length)
  refine ⟨List.mem_append_left more h.1, ?_⟩
  rw [List.idxOf_append_of_mem hp, List.idxOf_append_of_mem h.1]
  exact h.2

theorem joinedBefore_append_singleton {pairs : List (String × String)} {p q : String × String}
    (hp : p ∈ pairs) (hq : q ∉ pairs) : JoinedBefore (pairs ++ [q]) p q := by
  refine ⟨List.mem_append_right pairs (List.mem_singleton_self q), ?_⟩
  rw [List.idxOf_append_of_mem hp, List.idxOf_append_of_notMem hq]
  exact Nat.lt_add_right _ (List.idxOf_lt_length_iff.2 hp)

/-! ## The order of the edges -/

namespace ElementGraph

theorem map_ends_put (edges : List OperationEdge) (e : OperationEdge) :
    (put edges e).map OperationEdge.ends =
      if e.ends ∈ edges.map OperationEdge.ends then edges.map OperationEdge.ends
      else edges.map OperationEdge.ends ++ [e.ends] := by
  rw [put, ends_putEdge]
  exact if_congr containsEdge_iff rfl rfl

/-- **Edges stand in the order in which their pairs were joined first.** -/
theorem pairwise_joinedBefore_foldl_put (es : List OperationEdge) :
    ((es.foldl put []).map OperationEdge.ends).Pairwise
      (JoinedBefore (es.map OperationEdge.ends)) := by
  induction es using List.reverseRecOn with
  | nil => exact List.Pairwise.nil
  | append_singleton es e ih =>
    have hkept := ih.imp fun h => JoinedBefore.append h [e.ends]
    rw [List.foldl_append, List.foldl_cons, List.foldl_nil, map_ends_put, List.map_append,
      List.map_singleton]
    split
    · exact hkept
    · next hnew =>
      refine List.pairwise_append.2 ⟨hkept, List.pairwise_singleton _ _, fun p hp q hq => ?_⟩
      obtain rfl := List.mem_singleton.1 hq
      obtain ⟨f, hf, rfl⟩ := List.mem_map.1 hp
      refine joinedBefore_append_singleton (List.mem_map_of_mem ?_) fun he => ?_
      · exact (mem_of_mem_foldl_put hf).resolve_right List.not_mem_nil
      · obtain ⟨d, hd, hends⟩ := List.mem_map.1 he
        obtain ⟨f, hf, hends'⟩ : ∃ f ∈ es.foldl put [], f.ends = d.ends :=
          exists_mem_foldl_put (Or.inl hd)
        exact hnew (List.mem_map.2 ⟨f, hf, hends'.trans hends⟩)

end ElementGraph

namespace OperationGraph

open ElementGraph

variable {g : ElementGraph} {s : ElementGraph × IdSource} {roots : List String}

/-- The pairs that a build joins, one after the other, some of them more than once: those of the
drawn relations, of the connections between containers, and of the binds from containers. -/
def joinedPairs (drawing : Drawing) (settings : Settings) (ids : IdSource) :
    List (String × String) :=
  let g := (connected drawing settings ids).1
  (drawnEdges settings drawing.relations).map OperationEdge.ends ++
    drawing.designations.flatMap connectionsOf ++
    drawing.areas.flatMap fun m => (listedPairs (componentRootsOf g) m).filter (isBound g)

/-- The graph of a build so far: binds from containers were added to another graph. -/
def BoundOnto (g : ElementGraph) (s : ElementGraph × IdSource) : Prop :=
  ∃ pairs, BoundFrom pairs g s.1

theorem BoundOnto.isBound_eq (h : BoundOnto g s) : isBound s.1 = isBound g := by
  obtain ⟨pairs, hb⟩ := h
  funext p
  have hcontains : s.1.contains p.1 = g.contains p.1 := by
    rw [Bool.eq_iff_iff, contains_iff, contains_iff, hb.ids]
  rw [isBound, isBound, hcontains, hb.nested]

theorem BoundOnto.bindFromArea (hg : Rooted roots g) (h : BoundOnto g s) {r : String}
    (hr : r ∈ roots) (a : String) : BoundOnto g (bindFromArea r s a) := by
  obtain ⟨pairs, hb⟩ := h
  exact ⟨_, hb.trans (boundFrom_bindFromArea (hg.bind hb) hr a)⟩

theorem exists_puts_bindInnermost_pairs (hg : Rooted roots g) (h : BoundOnto g s)
    (m : AreaMembership) : BoundOnto g (bindInnermost roots s m) ∧
      ∃ es, Puts s (bindInnermost roots s m) es ∧
        es.map OperationEdge.ends = (listedPairs roots m).filter (isBound g) := by
  unfold bindInnermost listedPairs
  by_cases hr : m.nodeId ∈ roots
  · have hs : s.1.contains m.nodeId = true := by
      obtain ⟨pairs, hb⟩ := h
      exact contains_iff.2 ((hg.bind hb).elements m.nodeId hr)
    rw [List.contains_iff_mem.2 hr, hs, List.map_eq_flatMap, if_pos rfl, List.filter_flatMap]
    refine exists_puts_foldl_pairs _ (fun s a hs => ⟨hs.bindFromArea hg hr a, ?_⟩) m.areaIds h
    rw [← hs.isBound_eq]
    exact exists_puts_bindFromArea m.nodeId s a
  · have hnot : roots.contains m.nodeId = false := by simpa using hr
    rw [hnot]
    exact ⟨h, [], .refl s, rfl⟩

/-- **A build puts edges on the joined pairs**, one after the other. -/
theorem exists_edges_joinedPairs (drawing : Drawing) (settings : Settings) (ids : IdSource) :
    ∃ es : List OperationEdge, (build drawing settings ids).1.graph.edges = es.foldl put [] ∧
      es.map OperationEdge.ends = joinedPairs drawing settings ids := by
  obtain ⟨cs, hcs, hconnections, -⟩ := exists_edges_connected drawing settings ids
  obtain ⟨-, bs, hbs, hbinds⟩ := exists_puts_foldl_pairs
    (I := BoundOnto (connected drawing settings ids).1) _
    (fun s m hs => exists_puts_bindInnermost_pairs (rooted_connected drawing settings ids) hs m)
    drawing.areas (s := connected drawing settings ids) ⟨[], .refl nofun⟩
  refine ⟨drawnEdges settings drawing.relations ++ cs ++ bs, ?_, ?_⟩
  · rw [List.foldl_append, ← hcs]
    exact hbs.edges
  · rw [List.map_append, List.map_append, hconnections, hbinds]
    rfl

theorem pairwise_joinedBefore_build (drawing : Drawing) (settings : Settings) (ids : IdSource) :
    (build drawing settings ids).1.graph.edges.Pairwise fun e f =>
      JoinedBefore (joinedPairs drawing settings ids) e.ends f.ends := by
  obtain ⟨es, hes, hends⟩ := exists_edges_joinedPairs drawing settings ids
  rw [← List.pairwise_map, hes, ← hends]
  exact pairwise_joinedBefore_foldl_put es

end OperationGraph

namespace ExecutionPlan

open ElementGraph OperationGraph

variable {drawing : Drawing} {settings : Settings} {ids : IdSource} {root : String}

/-! ## Distances -/

/-- No edge leads to an isolate. -/
theorem notMem_isolates_of_edge {e : OperationEdge}
    (he : e ∈ (build drawing settings ids).1.graph.edges) :
    e.childId ∉ (build drawing settings ids).1.isolates := by
  obtain ⟨bs, hbs, hroots, -⟩ := exists_edges_build drawing settings ids
  rw [hbs] at he
  rcases mem_of_mem_foldl_put he with he | he
  · have hroot : e.childId ∈ componentRootsOf (connected drawing settings ids).1 := hroots e he
    show e.childId ∉ isolatesOf (connected drawing settings ids).1
    simpa using (List.mem_filter.1 hroot).2
  · exact (notMem_isolates he).2

/-- Isolates are on no way from an element that is none, so a plan leaves the distances as they
are. -/
theorem within_plannedGraph (hroot : root ∉ (build drawing settings ids).1.isolates) {n : Nat}
    {x : String} :
    Search.Within (plannedGraph (build drawing settings ids).1).successors root n x ↔
      Search.Within (build drawing settings ids).1.graph.successors root n x := by
  constructor
  · intro h
    induction h with
    | start n => exact .start n
    | step _ hy ih =>
      obtain ⟨e, he, hp, hc⟩ := mem_successors.1 hy
      exact .step ih (mem_successors.2 ⟨e, (mem_edges_without.1 he).1, hp, hc⟩)
  · intro h
    suffices x ∉ (build drawing settings ids).1.isolates ∧
      Search.Within (plannedGraph (build drawing settings ids).1).successors root n x from this.2
    induction h with
    | start n => exact ⟨hroot, .start n⟩
    | step _ hy ih =>
      obtain ⟨e, he, rfl, rfl⟩ := mem_successors.1 hy
      have hc := notMem_isolates_of_edge he
      exact ⟨hc, .step ih.2 (mem_successors.2 ⟨e, mem_edges_without.2 ⟨he, ih.1, hc⟩, rfl, rfl⟩)⟩

/-! ## The order of the search -/

/-- Says that the search from a root finds an edge before another one by its rules: the parent of
the other one is no nearer, and if it is the same its pair was joined later. -/
structure FoundBefore (g : ElementGraph) (root : String) (pairs : List (String × String))
    (e f : String × String) : Prop where
  nearer : ∀ n, Search.Within g.successors root n f.1 → Search.Within g.successors root n e.1
  joined : e.1 = f.1 → JoinedBefore pairs e f

/-- **The search finds edges in the order of its rules.** -/
theorem pairwise_foundBefore_edgesFrom {g : ElementGraph} {pairs : List (String × String)}
    (hg : g.edges.Pairwise fun e f => JoinedBefore pairs e.ends f.ends) (root : String) :
    (edgesFrom g root).Pairwise fun e f => FoundBefore g root pairs e.ends f.ends := by
  refine List.pairwise_flatMap.2 ⟨fun id _ => ?_, ?_⟩
  · -- The edges of one element stand as in the graph.
    refine (hg.filter _).imp_of_mem fun {e f} he hf hef => ⟨fun n hn => ?_, fun _ => hef⟩
    show Search.Within _ _ n e.parentId
    rw [(mem_outgoing.1 he).2, ← (mem_outgoing.1 hf).2]
    exact hn
  · have hsorted := Search.reached_sorted g.successors g.elements.length root
    have hnodup := Search.reached_nodup g.successors g.elements.length root
    refine (hsorted.and hnodup).imp fun {a b} hab e he f hf => ⟨?_, fun heq => ?_⟩
    · show ∀ n, Search.Within _ _ n f.parentId → Search.Within _ _ n e.parentId
      rw [(mem_outgoing.1 he).2, (mem_outgoing.1 hf).2]
      exact hab.1
    · exact absurd ((mem_outgoing.1 he).2.symm.trans (heq.trans (mem_outgoing.1 hf).2)) hab.2

/-! ## The three keys -/

/-- Says that an operation may stand before another one in a plan: it is no lighter; if they weigh
the same, the parent of the other one is no farther from the root; and if they have one parent, the
pair of the other one was joined before. -/
structure Scheduled (g : ElementGraph) (root : String) (pairs : List (String × String))
    (x y : PlannedOperation) : Prop where
  weight : y.kind.weight ≤ x.kind.weight
  distance : x.kind.weight = y.kind.weight → ∀ m n,
    Search.IsDistance g.successors root m x.parentId →
      Search.IsDistance g.successors root n y.parentId → n ≤ m
  joined : x.kind.weight = y.kind.weight → x.parentId = y.parentId →
    JoinedBefore pairs (y.parentId, y.childId) (x.parentId, x.childId)

/--
**The operations of a component are ordered by three keys.**

Of any two operations, the one that stands first is no lighter. If they weigh the same, its parent
is no nearer to the root of the component. If they have one parent as well, its pair was joined
later. All parents have a distance from the root, and the build puts one edge after the other on the
joined pairs.
-/
theorem operations_scheduled (drawing : Drawing) (settings : Settings) (ids : IdSource)
    {c : ComponentPlan} (hc : c ∈ (ofDrawing drawing settings ids).components)
    (hroot : c.rootId = some root) :
    let g := (build drawing settings ids).1.graph
    (∃ es : List OperationEdge, g.edges = es.foldl put [] ∧
      es.map OperationEdge.ends = joinedPairs drawing settings ids) ∧
    (∀ op ∈ c.operations, ∃ n, Search.IsDistance g.successors root n op.parentId) ∧
    c.operations.Pairwise (Scheduled g root (joinedPairs drawing settings ids)) := by
  intro g
  let p := plannedGraph (build drawing settings ids).1
  have hp : p.WellFormed := wellFormed_plannedGraph drawing settings ids
  obtain ⟨hops, hri⟩ := operations_of_rootId hc hroot
  have hwithin : ∀ {n x}, Search.Within p.successors root n x ↔
      Search.Within g.successors root n x := within_plannedGraph (mem_ids_without.1 hri).2
  refine ⟨exists_edges_joinedPairs drawing settings ids, ?_, ?_⟩
  · intro op hop
    rw [hops] at hop
    obtain ⟨e, he, hep, rfl⟩ := exists_edge_of_mem_operations hp hri hop
    obtain ⟨n, hn, hmin⟩ := Search.exists_isDistance (Search.reaches_of_mem_reached hep)
    exact ⟨n, hwithin.1 hn, fun m hm => hmin m (hwithin.2 hm)⟩
  · have hjoined : p.edges.Pairwise fun e f =>
        JoinedBefore (joinedPairs drawing settings ids) e.ends f.ends :=
      (pairwise_joinedBefore_build drawing settings ids).filter _
    have hfound := List.pairwise_reverse.2 (pairwise_foundBefore_edgesFrom hjoined root)
    have hplanned : ((edgesFrom p root).reverse.map (operationOf p)).Pairwise fun x y =>
        FoundBefore p root (joinedPairs drawing settings ids) (y.parentId, y.childId)
          (x.parentId, x.childId) := List.pairwise_map.2 hfound
    rw [hops]
    refine (pairwise_sortByWeight hplanned).imp fun {x y} hxy => ⟨hxy.1, ?_, ?_⟩
    · intro hw m n hm hn
      exact hn.2 m (hwithin.1 ((hxy.2 hw).nearer m (hwithin.2 hm.1)))
    · exact fun hw hparent => (hxy.2 hw).joined hparent.symm

/-- A root with two parts, of which the first has a part of its own. -/
def fork : Drawing :=
  ((Drawing.empty.relate "r" "R[R|r_]" "mds:bind" "a" "A[A|a_]").relate
    "r" "R[R|r_]" "mds:bind" "b" "B[B|b_]").relate
    "a" "A[A|a_]" "mds:bind" "c" "C[C|c_]"

/-- The farthest parent comes first, and the pair that was joined first comes last. -/
theorem operations_scheduled_fork :
    ∃ c ∈ (ofDrawing fork .standard (.ofHeader "gen")).components,
      c.rootId = some "r" ∧ c.operations.map PlannedOperation.childId = ["c", "b", "a"] ∧
      JoinedBefore (joinedPairs fork .standard (.ofHeader "gen")) ("r", "a") ("r", "b") := by
  let x : PlannedOperation := ⟨"r3", .bind, "mds:bind", "a", "c", "C[C|c_]"⟩
  let y : PlannedOperation := ⟨"r2", .bind, "mds:bind", "r", "b", "B[B|b_]"⟩
  let z : PlannedOperation := ⟨"r1", .bind, "mds:bind", "r", "a", "A[A|a_]"⟩
  have hplan : ∀ c ∈ (ofDrawing fork .standard (.ofHeader "gen")).components,
      c.rootId = some "r" ∧ c.operations = [x, y, z] := by decide +kernel
  obtain ⟨c, hc⟩ := List.exists_mem_of_ne_nil
    (ofDrawing fork .standard (.ofHeader "gen")).components (by decide +kernel)
  obtain ⟨hroot, hops⟩ := hplan c hc
  obtain ⟨-, -, hscheduled⟩ := operations_scheduled _ _ _ hc hroot
  have hyz : Precedes c.operations y z := by
    rw [hops]
    exact List.sublist_cons_self x [y, z]
  exact ⟨c, hc, hroot, by rw [hops]; rfl, (hyz.pairwise hscheduled).joined rfl rfl⟩

end ExecutionPlan

end Ontogram
