import Ontogram.Proofs.Diagram.Partition

/-!
# Rows whose edge is overwritten

A pair of elements has one edge, the one that was put on it last. So the edge of a drawn row is gone
once a later row joins the same pair, or a connection between containers does. The binds from
containers do no harm: they lead to component roots, and no edge of a row leads there.

A row whose edge is there is planned or unreached, unless its component has no root. A row whose
edge is gone is in no list of the plan.

* `ElementGraph.mem_foldl_put_iff` — which edges are left of those that were put.
* `ExecutionPlan.lists_drawn_iff` — which rows a plan lists.
-/

namespace Ontogram

namespace ElementGraph

/-! ## Putting edges one after the other -/

/-- The edges after one was put. -/
def put (edges : List OperationEdge) (e : OperationEdge) : List OperationEdge :=
  (putEdge ⟨[], edges⟩ e).edges

theorem edges_putEdge (g : ElementGraph) (e : OperationEdge) :
    (g.putEdge e).edges = put g.edges e := by
  unfold put putEdge containsEdge
  simp only
  split <;> rfl

/-- An edge that is put takes the place of the one of its pair. -/
theorem mem_put_iff {edges : List OperationEdge} {e f : OperationEdge} :
    f ∈ put edges e ↔ f = e ∨ f ∈ edges ∧ f.ends ≠ e.ends := by
  have hjoins : ∀ f : OperationEdge, f.joins e.parentId e.childId = true ↔ f.ends = e.ends :=
    fun _ => joins_iff
  unfold put putEdge
  split
  · next hc =>
    obtain ⟨d, hd, hends⟩ := List.any_eq_true.1 hc
    rw [hjoins] at hends
    simp only [List.mem_map, hjoins]
    constructor
    · rintro ⟨f', hf', h⟩
      split at h
      · exact Or.inl h.symm
      · next hne => exact Or.inr ⟨h ▸ hf', h ▸ hne⟩
    · rintro (rfl | ⟨hf, hne⟩)
      · exact ⟨d, hd, if_pos hends⟩
      · exact ⟨f, hf, if_neg hne⟩
  · next hc =>
    have hnew : ∀ f ∈ edges, f.ends ≠ e.ends := by
      intro f hf hends
      exact hc (List.any_eq_true.2 ⟨f, hf, (hjoins f).2 hends⟩)
    simp only [List.mem_append, List.mem_singleton]
    constructor
    · rintro (hf | rfl)
      · exact Or.inr ⟨hf, hnew f hf⟩
      · exact Or.inl rfl
    · rintro (rfl | ⟨hf, -⟩)
      · exact Or.inr rfl
      · exact Or.inl hf

/-- **What is left is what no later edge overwrites.** -/
theorem mem_foldl_put_iff {es edges : List OperationEdge} {f : OperationEdge} :
    f ∈ es.foldl put edges ↔
      (∃ later, f :: later <:+ es ∧ ∀ e ∈ later, f.ends ≠ e.ends) ∨
        f ∈ edges ∧ ∀ e ∈ es, f.ends ≠ e.ends := by
  induction es generalizing edges with
  | nil => simp
  | cons e es ih =>
    rw [List.foldl_cons, ih, mem_put_iff]
    simp only [List.suffix_cons_iff, List.cons.injEq, List.forall_mem_cons]
    constructor
    · rintro (⟨later, hl, h⟩ | ⟨rfl | ⟨hf, hne⟩, h⟩)
      · exact Or.inl ⟨later, Or.inr hl, h⟩
      · exact Or.inl ⟨es, Or.inl ⟨rfl, rfl⟩, h⟩
      · exact Or.inr ⟨hf, hne, h⟩
    · rintro (⟨later, ⟨rfl, rfl⟩ | hl, h⟩ | ⟨hf, hne, h⟩)
      · exact Or.inr ⟨Or.inl rfl, h⟩
      · exact Or.inl ⟨later, hl, h⟩
      · exact Or.inr ⟨Or.inr ⟨hf, hne⟩, h⟩

theorem mem_of_mem_foldl_put {es edges : List OperationEdge} {f : OperationEdge}
    (hf : f ∈ es.foldl put edges) : f ∈ es ∨ f ∈ edges := by
  rcases mem_foldl_put_iff.1 hf with ⟨later, hl, -⟩ | ⟨hf, -⟩
  · exact Or.inl (hl.mem List.mem_cons_self)
  · exact Or.inr hf

/-- An edge is gone if its pair is joined again and it is not put again. -/
theorem notMem_foldl_put {es edges : List OperationEdge} {e f : OperationEdge} (he : e ∈ es)
    (hends : f.ends = e.ends) (hf : f ∉ es) : f ∉ es.foldl put edges := by
  rw [mem_foldl_put_iff]
  rintro (⟨later, hl, -⟩ | ⟨-, h⟩)
  · exact hf (hl.mem List.mem_cons_self)
  · exact h e he hends

/-- A pair that was joined stays joined. -/
theorem exists_mem_foldl_put {es edges : List OperationEdge} {e : OperationEdge}
    (he : e ∈ es ∨ e ∈ edges) : ∃ f ∈ es.foldl put edges, f.ends = e.ends := by
  induction es generalizing edges e with
  | nil => exact ⟨e, by simpa using he, rfl⟩
  | cons d es ih =>
    rw [List.foldl_cons]
    by_cases hends : e.ends = d.ends
    · obtain ⟨f, hf, h⟩ := ih (Or.inr (mem_put_iff.2 (Or.inl rfl)))
      exact ⟨f, hf, h.trans hends.symm⟩
    · apply ih
      rcases he with he | he
      · rcases List.mem_cons.1 he with rfl | he
        · exact absurd rfl hends
        · exact Or.inl he
      · exact Or.inr (mem_put_iff.2 (Or.inr ⟨he, hends⟩))

end ElementGraph

/-! ## The edges of a diagram in the order in which they are put -/

/-- Says that an id is one that a source hands out. -/
def IdSource.Issues (s : IdSource) (id : String) : Prop :=
  ∃ n, id = IdSource.nextId ⟨s.header, n⟩

namespace OperationGraph

open ElementGraph

/-- Edges with ids of a source are put one after the other. -/
structure Puts (s t : ElementGraph × IdSource) (es : List OperationEdge) : Prop where
  edges : t.1.edges = es.foldl put s.1.edges
  header : t.2.header = s.2.header
  issued : ∀ e ∈ es, s.2.Issues e.relId

variable {s t u : ElementGraph × IdSource} {es ds : List OperationEdge}

theorem Puts.refl (s : ElementGraph × IdSource) : Puts s s [] :=
  ⟨rfl, rfl, nofun⟩

theorem Puts.trans (h : Puts s t es) (h' : Puts t u ds) : Puts s u (es ++ ds) where
  edges := by rw [h'.edges, h.edges, List.foldl_append]
  header := h'.header.trans h.header
  issued := by
    intro e he
    rcases List.mem_append.1 he with he | he
    · exact h.issued e he
    · obtain ⟨n, hn⟩ := h'.issued e he
      exact ⟨n, by rw [hn, h.header]⟩

/-- A bind that was not drawn is put with the next id. -/
theorem puts_bindEdge {g : ElementGraph} {ids : IdSource} {g' : ElementGraph}
    (hg : g'.edges = g.edges) (parentId childId : String) (isAreaConnection : Bool) :
    Puts (g, ids) (g'.putEdge (bindEdge parentId childId ids.nextId isAreaConnection), ids.advance)
      [bindEdge parentId childId ids.nextId isAreaConnection] where
  edges := by rw [edges_putEdge, hg]; rfl
  header := rfl
  issued := by
    intro e he
    rw [List.mem_singleton.1 he]
    exact ⟨ids.used, rfl⟩

/-- What each step says of the edges that it puts is said of those of all steps, if it can be said
of edges one after the other. The steps may rely on what they all keep. -/
theorem exists_puts_foldl {α : Type} {step : ElementGraph × IdSource → α → ElementGraph × IdSource}
    {I : ElementGraph × IdSource → Prop} {Q : List α → List OperationEdge → Prop} (hnil : Q [] [])
    (hcons : ∀ {a as es ds}, Q [a] es → Q as ds → Q (a :: as) (es ++ ds))
    (hstep : ∀ s a, I s → I (step s a) ∧ ∃ es, Puts s (step s a) es ∧ Q [a] es) (as : List α)
    {s : ElementGraph × IdSource} (hs : I s) :
    I (as.foldl step s) ∧ ∃ es, Puts s (as.foldl step s) es ∧ Q as es := by
  induction as generalizing s with
  | nil => exact ⟨hs, [], .refl s, hnil⟩
  | cons a as ih =>
    obtain ⟨hkept, es, hes, hQ⟩ := hstep s a hs
    obtain ⟨hkept, ds, hds, hQ'⟩ := ih hkept
    exact ⟨hkept, es ++ ds, hes.trans hds, hcons hQ hQ'⟩

/-- Steps that put edges on the pairs of their items. -/
theorem exists_puts_foldl_pairs {α : Type}
    {step : ElementGraph × IdSource → α → ElementGraph × IdSource}
    {I : ElementGraph × IdSource → Prop} (pairs : α → List (String × String))
    (hstep : ∀ s a, I s → I (step s a) ∧
      ∃ es, Puts s (step s a) es ∧ es.map OperationEdge.ends = pairs a)
    (as : List α) {s : ElementGraph × IdSource} (hs : I s) : I (as.foldl step s) ∧
      ∃ es, Puts s (as.foldl step s) es ∧ es.map OperationEdge.ends = as.flatMap pairs := by
  refine exists_puts_foldl (Q := fun as es => es.map OperationEdge.ends = as.flatMap pairs) rfl ?_
    (by simpa using hstep) as hs
  intro a as es ds hes hds
  rw [List.map_append, hes, hds, List.flatMap_singleton, List.flatMap_cons]

/-- Steps that put edges with a property. -/
theorem exists_puts_foldl_forall {α : Type}
    {step : ElementGraph × IdSource → α → ElementGraph × IdSource} {P : OperationEdge → Prop}
    (hstep : ∀ s a, ∃ es, Puts s (step s a) es ∧ ∀ e ∈ es, P e) (as : List α)
    (s : ElementGraph × IdSource) : ∃ es, Puts s (as.foldl step s) es ∧ ∀ e ∈ es, P e :=
  (exists_puts_foldl (I := fun _ => True) (Q := fun _ es => ∀ e ∈ es, P e) nofun
    (fun hes hds => List.forall_mem_append.2 ⟨hes, hds⟩) (fun s a _ => ⟨trivial, hstep s a⟩) as
    trivial).2

/-- The pairs of the connections that a designation makes. -/
def connectionsOf (d : Designation) : List (String × String) :=
  d.related.flatMap fun r => if Label.isContainer r.label then [(d.nodeId, r.id)] else []

theorem mem_connectionsOf {d : Designation} {p c : String} :
    (p, c) ∈ connectionsOf d ↔
      d.nodeId = p ∧ ∃ r ∈ d.related, Label.isContainer r.label = true ∧ r.id = c := by
  unfold connectionsOf
  simp only [List.mem_flatMap, List.mem_ite_nil_right, List.mem_singleton, Prod.mk.injEq]
  grind

theorem exists_puts_addRelated (nodeId : String) (s : ElementGraph × IdSource) (r : RelatedLabel) :
    ∃ es, Puts s (addRelated nodeId s r) es ∧ es.map OperationEdge.ends =
      if Label.isContainer r.label then [(nodeId, r.id)] else [] := by
  unfold addRelated
  split
  · exact ⟨_, puts_bindEdge (edges_ensure _ _) _ _ _, rfl⟩
  · exact ⟨[], .refl s, rfl⟩

theorem exists_puts_addDesignation (s : ElementGraph × IdSource) (d : Designation) :
    ∃ es, Puts s (addDesignation s d) es ∧ es.map OperationEdge.ends = connectionsOf d := by
  obtain ⟨-, es, hes, hends⟩ := exists_puts_foldl_pairs (I := fun _ => True) _
    (fun s r _ => ⟨trivial, exists_puts_addRelated d.nodeId s r⟩) d.related
    (s := (s.1.ensure d.nodeId d.label, s.2)) trivial
  refine ⟨es, ⟨?_, hes.header, hes.issued⟩, hends⟩
  rw [addDesignation, hes.edges, edges_ensure]

/-- The edges of the rows that are not secondary. -/
def drawnEdges (settings : Settings) (rows : List DrawnRelation) : List OperationEdge :=
  (rows.filter fun r => !settings.isSecondary r.rel).map drawnEdge

theorem mem_drawnEdges {settings : Settings} {rows : List DrawnRelation} {e : OperationEdge} :
    e ∈ drawnEdges settings rows ↔
      ∃ r ∈ rows, settings.isSecondary r.rel = false ∧ drawnEdge r = e := by
  simp [drawnEdges, and_assoc]

theorem drawnEdges_append (settings : Settings) (rows later : List DrawnRelation) :
    drawnEdges settings (rows ++ later) =
      drawnEdges settings rows ++ drawnEdges settings later := by
  simp [drawnEdges]

theorem edges_addDrawn (settings : Settings) (rows : List DrawnRelation) (g : ElementGraph) :
    (rows.foldl (addDrawn settings) g).edges = (drawnEdges settings rows).foldl put g.edges := by
  induction rows generalizing g with
  | nil => rfl
  | cons r rows ih =>
    rw [List.foldl_cons, ih, addDrawn, drawnEdges, drawnEdges, List.filter_cons]
    cases settings.isSecondary r.rel <;> simp [edges_putEdge, edges_ensure]

/-- The rows come first, then the connections between containers. -/
theorem exists_edges_connected (drawing : Drawing) (settings : Settings) (ids : IdSource) :
    ∃ es, (connected drawing settings ids).1.edges =
        (drawnEdges settings drawing.relations ++ es).foldl put [] ∧
      es.map OperationEdge.ends = drawing.designations.flatMap connectionsOf ∧
      (∀ e ∈ es, ids.Issues e.relId) ∧ (connected drawing settings ids).2.header = ids.header := by
  obtain ⟨-, es, hes, hends⟩ := exists_puts_foldl_pairs (I := fun _ => True) _
    (fun s d _ => ⟨trivial, exists_puts_addDesignation s d⟩) drawing.designations
    (s := (drawing.relations.foldl (addDrawn settings) .empty, ids)) trivial
  refine ⟨es, ?_, hends, hes.issued, hes.header⟩
  rw [connected, hes.edges, edges_addDrawn, List.foldl_append]
  rfl

/-- Says whether the container of a pair may bind an element: it is an element that holds no other
container. -/
def isBound (g : ElementGraph) (p : String × String) : Bool :=
  g.contains p.1 && !hasNestedAreas g p.1

theorem exists_puts_bindFromArea (rootId : String) (s : ElementGraph × IdSource) (areaId : String) :
    ∃ es, Puts s (bindFromArea rootId s areaId) es ∧
      es.map OperationEdge.ends = [(areaId, rootId)].filter (isBound s.1) := by
  rw [List.filter_singleton, isBound]
  unfold bindFromArea
  simp only
  split
  · next hc =>
    rw [hc]
    exact ⟨_, puts_bindEdge rfl _ _ _, rfl⟩
  · next hc =>
    rw [Bool.not_eq_true] at hc
    rw [hc]
    exact ⟨[], .refl s, rfl⟩

theorem exists_puts_bindInnermost (roots : List String) (s : ElementGraph × IdSource)
    (m : AreaMembership) :
    ∃ es, Puts s (bindInnermost roots s m) es ∧ ∀ e ∈ es, e.childId ∈ roots := by
  unfold bindInnermost
  split
  · next hc =>
    have hroot : m.nodeId ∈ roots := by simpa using (Bool.and_eq_true_iff.1 hc).1
    refine exists_puts_foldl_forall (fun s a => ?_) m.areaIds s
    obtain ⟨es, hes, hends⟩ := exists_puts_bindFromArea m.nodeId s a
    refine ⟨es, hes, fun e he => ?_⟩
    have hpair := List.mem_map_of_mem (f := OperationEdge.ends) he
    rw [hends] at hpair
    have hchild : e.childId = m.nodeId :=
      congrArg Prod.snd (List.mem_singleton.1 (List.mem_filter.1 hpair).1)
    exact hchild ▸ hroot
  · exact ⟨[], .refl s, nofun⟩

/-- The binds from containers come last. -/
theorem exists_edges_build (drawing : Drawing) (settings : Settings) (ids : IdSource) :
    ∃ es : List OperationEdge, (build drawing settings ids).1.graph.edges =
        es.foldl put (connected drawing settings ids).1.edges ∧
      (∀ e ∈ es, e.childId ∈ (build drawing settings ids).1.componentRoots) ∧
      ∀ e ∈ es, ids.Issues e.relId := by
  obtain ⟨es, hes, hroots⟩ := exists_puts_foldl_forall
    (exists_puts_bindInnermost (componentRootsOf (connected drawing settings ids).1))
    drawing.areas (connected drawing settings ids)
  obtain ⟨-, -, -, -, hheader⟩ := exists_edges_connected drawing settings ids
  refine ⟨es, hes.edges, hroots, fun e he => ?_⟩
  obtain ⟨n, hn⟩ := hes.issued e he
  exact ⟨n, by rw [hn, hheader]⟩

end OperationGraph

/-! ## Which rows a plan lists -/

namespace ExecutionPlan

open ElementGraph OperationGraph

variable {drawing : Drawing} {settings : Settings} {ids : IdSource} {r : DrawnRelation}

/-- Says that a later row or a connection between containers joins the pair of a row. -/
def Overwritten (drawing : Drawing) (settings : Settings) (r : DrawnRelation) : Prop :=
  (∃ later, r :: later <:+ drawing.relations ∧ ∃ s ∈ later, settings.isSecondary s.rel = false ∧
      s.parentId = r.parentId ∧ s.childId = r.childId) ∨
    ∃ d ∈ drawing.designations, d.nodeId = r.parentId ∧
      ∃ x ∈ d.related, Label.isContainer x.label = true ∧ x.id = r.childId

/-- Says that a component has an edge of an id among its operations or its unreached edges. -/
def Lists (c : ComponentPlan) (relId : String) : Prop :=
  (∃ op ∈ c.operations, op.relId = relId) ∨ relId ∈ c.unreached

/-- A component with a root lists all of its edges, and one without root none. -/
theorem lists_iff {g : ElementGraph} {c : ComponentPlan} (h : AccountsFor g c) {relId : String} :
    Lists c relId ↔ c.rootId ≠ none ∧ ∃ e ∈ g.edgesIn c.nodes, e.relId = relId := by
  unfold Lists
  cases h with
  | rootless noRoot _ operations unreached => simp [noRoot, operations, unreached]
  | rooted root planned rest hasRoot _ _ each _ _ operations unreached =>
    simp only [hasRoot, unreached, operations.mem_iff, ← each.mem_iff, List.mem_append,
      List.mem_map]
    constructor
    · rintro (⟨-, ⟨e, he, rfl⟩, h⟩ | ⟨e, he, h⟩)
      · exact ⟨Option.some_ne_none root, e, Or.inl he, h⟩
      · exact ⟨Option.some_ne_none root, e, Or.inr he, h⟩
    · rintro ⟨-, e, he | he, h⟩
      · exact Or.inl ⟨_, ⟨e, he, rfl⟩, h⟩
      · exact Or.inr ⟨e, he, h⟩

/-! ### The edge of a row -/

/-- No edge of a row or connection leads to a component root. -/
theorem notMem_componentRoots {e : OperationEdge}
    (he : e ∈ (connected drawing settings ids).1.edges) :
    e.childId ∉ (build drawing settings ids).1.componentRoots := by
  intro hroot
  obtain ⟨members, -, hhead⟩ := List.mem_filterMap.1 (List.mem_filter.1 hroot).1
  exact (head?_eq_some hhead).2 ⟨e.parentId, .of_mem he⟩

/-- No end of an edge of a row or connection is an isolate. -/
theorem notMem_isolates {e : OperationEdge} (he : e ∈ (connected drawing settings ids).1.edges) :
    e.parentId ∉ (build drawing settings ids).1.isolates ∧
      e.childId ∉ (build drawing settings ids).1.isolates := by
  have hjoined : ∀ id, e.parentId = id ∨ e.childId = id →
      id ∉ (build drawing settings ids).1.isolates := by
    intro id hid hi
    obtain ⟨x, hx, rfl⟩ := List.mem_map.1 hi
    have halone := (Bool.and_eq_true_iff.1 (List.mem_filter.1 hx).2).1
    rw [List.isEmpty_iff, neighbours, List.filterMap_eq_nil_iff] at halone
    have hnone := halone e he
    split at hnone
    · cases hnone
    · next hp =>
      rw [if_pos (hid.resolve_left hp)] at hnone
      cases hnone
  exact ⟨hjoined _ (Or.inl rfl), hjoined _ (Or.inr rfl)⟩

theorem mem_edges_plannedGraph {e f : OperationEdge}
    (he : e ∈ (connected drawing settings ids).1.edges)
    (hf : f ∈ (build drawing settings ids).1.graph.edges) (hends : f.ends = e.ends) :
    f ∈ (plannedGraph (build drawing settings ids).1).edges := by
  obtain ⟨hp, hc⟩ := Prod.mk.inj hends
  obtain ⟨hpi, hci⟩ := notMem_isolates he
  exact mem_edges_without.2 ⟨hf, hp ▸ hpi, hc ▸ hci⟩

/-- The pair of a row is joined, whether by its edge or another. -/
theorem exists_edge_of_drawn (ids : IdSource) (hr : r ∈ drawing.relations)
    (hs : settings.isSecondary r.rel = false) :
    ∃ f ∈ (plannedGraph (build drawing settings ids).1).edges, f.ends = (drawnEdge r).ends := by
  obtain ⟨cs, hcs, -⟩ := exists_edges_connected drawing settings ids
  obtain ⟨bs, hbs, -⟩ := exists_edges_build drawing settings ids
  have hmem : drawnEdge r ∈ drawnEdges settings drawing.relations :=
    mem_drawnEdges.2 ⟨r, hr, hs, rfl⟩
  obtain ⟨e, he, hends⟩ : ∃ e ∈ (drawnEdges settings drawing.relations ++ cs).foldl put [],
      e.ends = (drawnEdge r).ends := exists_mem_foldl_put (Or.inl (List.mem_append_left cs hmem))
  rw [← hcs] at he
  obtain ⟨f, hf, hends'⟩ : ∃ f ∈ bs.foldl put (connected drawing settings ids).1.edges,
      f.ends = e.ends := exists_mem_foldl_put (Or.inr he)
  rw [← hbs] at hf
  exact ⟨f, mem_edges_plannedGraph he hf hends', hends'.trans hends⟩

/-- The edge of a row that is not overwritten is there. -/
theorem drawnEdge_mem (hr : r ∈ drawing.relations) (hs : settings.isSecondary r.rel = false)
    (ho : ¬Overwritten drawing settings r) :
    drawnEdge r ∈ (plannedGraph (build drawing settings ids).1).edges := by
  obtain ⟨cs, hcs, hpairs, -⟩ := exists_edges_connected drawing settings ids
  obtain ⟨bs, hbs, hroots, -⟩ := exists_edges_build drawing settings ids
  obtain ⟨before, later, hrows⟩ := List.append_of_mem hr
  have hlater : ∀ e ∈ drawnEdges settings later ++ cs, (drawnEdge r).ends ≠ e.ends := by
    intro e he hends
    rcases List.mem_append.1 he with he | he
    · obtain ⟨s, hsl, hss, rfl⟩ := mem_drawnEdges.1 he
      obtain ⟨hp, hc⟩ := Prod.mk.inj hends
      exact ho (Or.inl ⟨later, ⟨before, hrows.symm⟩, s, hsl, hss, hp.symm, hc.symm⟩)
    · have hpair := List.mem_map_of_mem (f := OperationEdge.ends) he
      rw [hpairs, ← hends] at hpair
      obtain ⟨d, hd, hpair⟩ := List.mem_flatMap.1 hpair
      exact ho (Or.inr ⟨d, hd, mem_connectionsOf.1 hpair⟩)
  have hconn : drawnEdge r ∈ (connected drawing settings ids).1.edges := by
    rw [hcs, mem_foldl_put_iff]
    refine Or.inl ⟨drawnEdges settings later ++ cs, ⟨drawnEdges settings before, ?_⟩, hlater⟩
    simp [hrows, drawnEdges, hs]
  refine mem_edges_plannedGraph hconn ?_ rfl
  -- The binds from containers lead to roots, where the edge does not lead.
  rw [hbs, mem_foldl_put_iff]
  refine Or.inr ⟨hconn, fun e he hends => notMem_componentRoots hconn ?_⟩
  rw [(Prod.mk.inj hends).2]
  exact hroots e he

/-- An edge with the id of a row is that of the row. -/
theorem eq_drawnEdge (hids : (drawing.relations.map DrawnRelation.relId).Nodup)
    (hr : r ∈ drawing.relations) (hfresh : ¬ids.Issues r.relId) {e : OperationEdge}
    (he : e ∈ (build drawing settings ids).1.graph.edges) (hid : e.relId = r.relId) :
    e = drawnEdge r := by
  obtain ⟨cs, hcs, -, hci, -⟩ := exists_edges_connected drawing settings ids
  obtain ⟨bs, hbs, -, hbi⟩ := exists_edges_build drawing settings ids
  rw [hbs] at he
  rcases mem_of_mem_foldl_put he with he | he
  · exact absurd (hid ▸ hbi e he) hfresh
  · rw [hcs] at he
    rcases List.mem_append.1 ((mem_of_mem_foldl_put he).resolve_right List.not_mem_nil) with he | he
    · obtain ⟨s, hs, -, rfl⟩ := mem_drawnEdges.1 he
      rw [List.inj_on_of_nodup_map hids hs hr hid]
    · exact absurd (hid ▸ hci e he) hfresh

/-- The edge of a row that is overwritten is gone. -/
theorem drawnEdge_notMem (hids : (drawing.relations.map DrawnRelation.relId).Nodup)
    (hfresh : ¬ids.Issues r.relId) (ho : Overwritten drawing settings r) :
    drawnEdge r ∉ (build drawing settings ids).1.graph.edges := by
  obtain ⟨cs, hcs, hpairs, hci, -⟩ := exists_edges_connected drawing settings ids
  obtain ⟨bs, hbs, -, hbi⟩ := exists_edges_build drawing settings ids
  have hcr : drawnEdge r ∉ cs := fun h => hfresh (hci _ h)
  have hbr : drawnEdge r ∉ bs := fun h => hfresh (hbi _ h)
  have hconn : drawnEdge r ∉ (connected drawing settings ids).1.edges := by
    rw [hcs]
    rcases ho with ⟨later, ⟨before, hrows⟩, s, hsl, hss, hp, hc⟩ | ⟨d, hd, hpair⟩
    · have hlater : drawnEdge r ∉ drawnEdges settings later := by
        intro h
        obtain ⟨t, ht, -, hrt⟩ := mem_drawnEdges.1 h
        rw [← hrows, List.map_append, List.map_cons] at hids
        have hnot := (List.nodup_cons.1 (List.nodup_append.1 hids).2.1).1
        exact hnot (List.mem_map.2 ⟨t, ht, congrArg OperationEdge.relId hrt⟩)
      have hsplit : drawnEdges settings drawing.relations ++ cs =
          drawnEdges settings (before ++ [r]) ++ (drawnEdges settings later ++ cs) := by
        rw [← hrows, ← List.append_assoc, ← drawnEdges_append, List.append_assoc]
        rfl
      rw [hsplit, List.foldl_append]
      exact notMem_foldl_put (List.mem_append_left cs (mem_drawnEdges.2 ⟨s, hsl, hss, rfl⟩))
        (Prod.ext hp.symm hc.symm) (by simp [hlater, hcr])
    · have hjoined := List.mem_flatMap.2 ⟨d, hd, mem_connectionsOf.2 hpair⟩
      rw [← hpairs] at hjoined
      obtain ⟨e, he, hends⟩ := List.mem_map.1 hjoined
      rw [List.foldl_append]
      exact notMem_foldl_put he hends.symm hcr
  rw [hbs]
  exact fun h => (mem_of_mem_foldl_put h).elim hbr hconn

/-! ### The plan of a diagram -/

/-- Of two components with a common element, both have a root or none has. -/
theorem rootId_ne_none_of_common {g : ElementGraph} {c d : ComponentPlan} {x : String}
    (hc : AccountsFor g c) (hd : AccountsFor g d)
    (hclassc : ∀ x ∈ c.nodes, ∀ y, y ∈ c.nodes ↔ g.Connected x y)
    (hclassd : ∀ x ∈ d.nodes, ∀ y, y ∈ d.nodes ↔ g.Connected x y) (hxc : x ∈ c.nodes)
    (hxd : x ∈ d.nodes) (hroot : d.rootId ≠ none) : c.rootId ≠ none := by
  cases hd with
  | rootless noRoot _ _ _ => exact absurd noRoot hroot
  | rooted root _ _ _ root_mem head _ _ _ _ _ =>
    cases hc with
    | rootless _ incoming _ _ =>
      exact absurd (incoming root ((hclassc x hxc root).2 ((hclassd x hxd root).1 root_mem))) head
    | rooted root' _ _ hasRoot _ _ _ _ _ _ _ => simp [hasRoot]

/--
**Which rows a plan lists.**

The ends of a row that is not secondary are in one component. If the row is not overwritten, the
component lists it or has no root. If no id that was handed out is that of the row, this is all: the
plan lists the row exactly if the component has a root and the row is not overwritten.
-/
theorem lists_drawn_iff (drawing : Drawing) (settings : Settings) (ids : IdSource)
    (hids : (drawing.relations.map DrawnRelation.relId).Nodup) {r : DrawnRelation}
    (hr : r ∈ drawing.relations) (hs : settings.isSecondary r.rel = false) :
    let p := ofDrawing drawing settings ids
    ∃ c ∈ p.components, r.parentId ∈ c.nodes ∧ r.childId ∈ c.nodes ∧
      (¬Overwritten drawing settings r → c.rootId = none ∨ Lists c r.relId) ∧
      (¬ids.Issues r.relId → ((∃ d ∈ p.components, Lists d r.relId) ↔
        c.rootId ≠ none ∧ ¬Overwritten drawing settings r)) := by
  intro p
  let g := plannedGraph (build drawing settings ids).1
  have hg : g.WellFormed := wellFormed_plannedGraph drawing settings ids
  obtain ⟨f, hf, hends⟩ := exists_edge_of_drawn ids hr hs
  obtain ⟨hparent, hchild⟩ := Prod.mk.inj hends
  obtain ⟨members, hm, hfp⟩ := exists_component (hg.ends_mem f hf).1
  have hfc := (mem_component_of_edge hg hm hf).1 hfp
  rw [← nodes_ofGraph] at hm
  obtain ⟨c, hc, rfl⟩ := List.mem_map.1 hm
  rw [hparent] at hfp
  rw [hchild] at hfc
  obtain ⟨hclass, hacc⟩ := accountsFor_of_mem hg hc
  have hlisted (ho : ¬Overwritten drawing settings r) : c.rootId = none ∨ Lists c r.relId := by
    by_cases hroot : c.rootId = none
    · exact Or.inl hroot
    · exact Or.inr ((lists_iff hacc).2
        ⟨hroot, drawnEdge r, mem_edgesIn.2 ⟨drawnEdge_mem hr hs ho, hfp, hfc⟩, rfl⟩)
  refine ⟨c, hc, hfp, hfc, hlisted, fun hfresh => ⟨?_, ?_⟩⟩
  · rintro ⟨d, hd, hl⟩
    obtain ⟨hclass', hacc'⟩ := accountsFor_of_mem hg hd
    obtain ⟨hroot, e, he, hid⟩ := (lists_iff hacc').1 hl
    obtain ⟨heg, hed, -⟩ := mem_edgesIn.1 he
    have heb := (mem_edges_without.1 heg).1
    obtain rfl := eq_drawnEdge hids hr hfresh heb hid
    exact ⟨rootId_ne_none_of_common hacc hacc' hclass hclass' hfp hed hroot,
      fun ho => drawnEdge_notMem hids hfresh ho heb⟩
  · rintro ⟨hroot, ho⟩
    exact ⟨c, hc, (hlisted ho).resolve_left hroot⟩

/-- A bind and a define of one pair. -/
def boundTwice : Drawing :=
  (Drawing.empty.relate "a" "A[T|t_]" "mds:bind" "b" "B[T|t_]").relate
    "a" "A[T|t_]" "mds:define" "b" "B[T|t_]"

theorem lists_drawn_iff_boundTwice :
    ∃ r ∈ boundTwice.relations, Settings.standard.isSecondary r.rel = false ∧
      ∃ c ∈ (ofDrawing boundTwice .standard (.ofHeader "gen")).components,
        r.parentId ∈ c.nodes ∧ r.childId ∈ c.nodes ∧ c.rootId ≠ none ∧
        ∀ d ∈ (ofDrawing boundTwice .standard (.ofHeader "gen")).components, ¬Lists d r.relId := by
  have hids : (boundTwice.relations.map DrawnRelation.relId).Nodup := by decide
  refine ⟨⟨"a", "A[T|t_]", "b", "B[T|t_]", "mds:bind", "r1"⟩, by decide, by decide, ?_⟩
  obtain ⟨c, hc, hp, hch, -, hiff⟩ := lists_drawn_iff boundTwice .standard (.ofHeader "gen") hids
    (r := ⟨"a", "A[T|t_]", "b", "B[T|t_]", "mds:bind", "r1"⟩) (by decide) (by decide)
  have hroots : ∀ c ∈ (ofDrawing boundTwice .standard (.ofHeader "gen")).components,
      c.rootId = some "a" := by decide +kernel
  refine ⟨c, hc, hp, hch, by simp [hroots c hc], fun d hd hl => ?_⟩
  have hfresh : ¬(IdSource.ofHeader "gen").Issues "r1" := by
    rintro ⟨n, hn⟩
    have h := congrArg String.toList hn
    simp [IdSource.ofHeader, IdSource.nextId] at h
  refine ((hiff hfresh).1 ⟨d, hd, hl⟩).2 (Or.inl ?_)
  exact ⟨[⟨"a", "A[T|t_]", "b", "B[T|t_]", "mds:define", "r2"⟩], by decide, _,
    List.mem_singleton_self _, by decide, rfl, rfl⟩

end ExecutionPlan

end Ontogram
