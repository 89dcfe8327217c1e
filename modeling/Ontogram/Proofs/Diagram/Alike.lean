import Ontogram.Proofs.Diagram.Overwriting

/-!
# Graphs that differ in the order of their elements

Two graphs are alike if they have the same elements under the same labels, and if the same edges
leave each element in the same order. The order of the elements does not matter, and neither does
the order of edges that leave different elements.

Everything that the plan of a component is made of is the same for graphs that are alike, but for
the first element that no edge leads to. And building a diagram keeps graphs alike, if the same
component roots are bound from containers.

* `ElementGraph.Alike` — the relation, with a lemma for each thing that is the same.
* `OperationGraph.alike_drawn` — rows of which the graphs are alike.
* `OperationGraph.matches_build` — from the rows to the graph of a diagram.
-/

namespace Ontogram

namespace ElementGraph

variable {g h : ElementGraph} {id : String}

/-- The same elements under the same labels, and the same edges from each in the same order. -/
structure Alike (g h : ElementGraph) : Prop where
  element? : ∀ id, g.element? id = h.element? id
  outgoing : ∀ id, g.outgoing id = h.outgoing id

theorem Alike.symm (a : Alike g h) : Alike h g :=
  ⟨fun id => (a.element? id).symm, fun id => (a.outgoing id).symm⟩

/-! ## What is the same -/

theorem Alike.contains (a : Alike g h) (id : String) : g.contains id = h.contains id := by
  unfold ElementGraph.contains
  rw [a.element?]

theorem Alike.mem_ids (a : Alike g h) : id ∈ g.ids ↔ id ∈ h.ids := by
  rw [← contains_iff, ← contains_iff, a.contains]

theorem Alike.mem_edges (a : Alike g h) {e : OperationEdge} : e ∈ g.edges ↔ e ∈ h.edges := by
  have hout : ∀ g : ElementGraph, e ∈ g.outgoing e.parentId ↔ e ∈ g.edges := fun g => by
    rw [mem_outgoing, and_iff_left rfl]
  rw [← hout g, a.outgoing, hout]

theorem Alike.edge (a : Alike g h) : g.Edge = h.Edge := by
  funext x y
  unfold Edge
  simp only [a.mem_edges]

theorem Alike.connected (a : Alike g h) : g.Connected = h.Connected := by
  unfold Connected
  rw [a.edge]

theorem Alike.isEmpty_neighbours (a : Alike g h) (id : String) :
    (g.neighbours id).isEmpty = (h.neighbours id).isEmpty := by
  rw [Bool.eq_iff_iff, List.isEmpty_iff, List.isEmpty_iff, neighbours, neighbours,
    List.filterMap_eq_nil_iff, List.filterMap_eq_nil_iff]
  simp only [a.mem_edges]

/-- An element is known by its id. -/
theorem WellFormed.mem_elements_iff (hg : g.WellFormed) {e : Element} :
    e ∈ g.elements ↔ g.element? e.id = some e := by
  constructor
  · intro he
    cases hf : g.element? e.id with
    | none =>
      have hnone := List.find?_eq_none.1 hf e he
      simp at hnone
    | some f =>
      have hid : f.id = e.id := by simpa using List.find?_some hf
      rw [List.inj_on_of_nodup_map hg.ids_nodup (List.mem_of_find?_eq_some hf) he hid]
  · exact List.mem_of_find?_eq_some

theorem Alike.length_elements (a : Alike g h) (hg : g.WellFormed) (hh : h.WellFormed) :
    g.elements.length = h.elements.length := by
  have hperm : g.ids.Perm h.ids :=
    (List.perm_ext_iff_of_nodup hg.ids_nodup hh.ids_nodup).2 fun _ => a.mem_ids
  rw [← List.length_map (f := Element.id), ← List.length_map (f := Element.id)]
  exact hperm.length_eq

/-! ## Changes -/

theorem element?_ensure (g : ElementGraph) (id content x : String) :
    (g.ensure id content).element? x =
      (g.element? x).or (if id = x then some ⟨id, content⟩ else none) := by
  unfold ensure
  by_cases hx : id = x
  · subst hx
    split
    · next hc =>
      obtain ⟨e, he⟩ := Option.isSome_iff_exists.1 hc
      rw [he]
      rfl
    · simp [element?]
  · rw [if_neg hx, Option.or_none]
    split
    · rfl
    · simp [element?, hx]

theorem Alike.ensure (a : Alike g h) (id content : String) :
    Alike (g.ensure id content) (h.ensure id content) where
  element? := by
    intro x
    rw [element?_ensure, element?_ensure, a.element?]
  outgoing := by
    intro x
    have hx := a.outgoing x
    unfold ElementGraph.outgoing at hx ⊢
    rw [edges_ensure, edges_ensure, hx]

theorem put_eq (edges : List OperationEdge) (e : OperationEdge) :
    put edges e = if edges.any fun f => f.joins e.parentId e.childId then
      edges.map fun f => if f.joins e.parentId e.childId then e else f else edges ++ [e] := by
  unfold put putEdge containsEdge
  split <;> rfl

/-- An edge takes the place of one with its own parent. -/
theorem filter_replace (edges : List OperationEdge) (e : OperationEdge) (id : String) :
    (edges.map fun f => if f.joins e.parentId e.childId then e else f).filter
        (fun f => f.parentId == id) =
      (edges.filter fun f => f.parentId == id).map
        fun f => if f.joins e.parentId e.childId then e else f := by
  rw [List.filter_map]
  refine congrArg _ (List.filter_congr fun f _ => ?_)
  rw [Function.comp_apply]
  split
  · next hj => rw [(Prod.mk.inj (joins_iff.1 hj)).1]
  · rfl

/-- Of the edges that leave an element, an edge is put among those of its own parent only. -/
theorem filter_put (edges : List OperationEdge) (e : OperationEdge) (id : String) :
    (put edges e).filter (fun f => f.parentId == id) =
      if e.parentId = id then put (edges.filter fun f => f.parentId == id) e
      else edges.filter fun f => f.parentId == id := by
  rw [put_eq]
  by_cases hid : e.parentId = id
  · have hany : (edges.filter fun f => f.parentId == id).any (fun f => f.joins e.parentId e.childId)
        = edges.any fun f => f.joins e.parentId e.childId := by
      rw [List.any_filter, ← hid]
      refine congrArg _ (funext fun f => ?_)
      unfold OperationEdge.joins
      rw [← Bool.and_assoc, Bool.and_self]
    rw [if_pos hid, put_eq, hany]
    split
    · exact filter_replace edges e id
    · simp [List.filter_append, hid]
  · rw [if_neg hid]
    split
    · rw [filter_replace]
      refine (List.map_congr_left fun f hf => ?_).trans (List.map_id _)
      rw [if_neg, id_eq]
      intro hj
      have hp : f.parentId = id := by simpa using (List.mem_filter.1 hf).2
      exact hid ((Prod.mk.inj (joins_iff.1 hj)).1.symm.trans hp)
    · simp [List.filter_append, hid]

theorem filter_foldl_put (es edges : List OperationEdge) (id : String) :
    (es.foldl put edges).filter (fun f => f.parentId == id) =
      (es.filter fun f => f.parentId == id).foldl put (edges.filter fun f => f.parentId == id) := by
  induction es generalizing edges with
  | nil => rfl
  | cons e es ih =>
    rw [List.foldl_cons, ih, filter_put, List.filter_cons]
    by_cases hid : e.parentId = id <;> simp [hid]

theorem element?_putEdge (g : ElementGraph) (e : OperationEdge) (id : String) :
    (g.putEdge e).element? id = g.element? id := by
  unfold ElementGraph.putEdge
  split <;> rfl

theorem Alike.putEdge (a : Alike g h) (e : OperationEdge) :
    Alike (g.putEdge e) (h.putEdge e) where
  element? := by
    intro x
    rw [element?_putEdge, element?_putEdge, a.element?]
  outgoing := by
    intro x
    have hx := a.outgoing x
    unfold ElementGraph.outgoing at hx ⊢
    rw [edges_putEdge, edges_putEdge, filter_put, filter_put, hx]

theorem element?_without (g : ElementGraph) (taken : List String) (id : String) :
    (g.without taken).element? id = if id ∈ taken then none else g.element? id := by
  unfold ElementGraph.without element?
  rw [List.find?_filter]
  split
  · next hid =>
    rw [List.find?_eq_none]
    intro e _ he
    obtain ⟨hn, hq⟩ := of_decide_eq_true he
    rw [beq_iff_eq] at hq
    simp [hq, hid] at hn
  · next hid =>
    refine congrArg (List.find? · g.elements) (funext fun e => ?_)
    by_cases he : e.id = id
    · simp [he, hid]
    · simp [he]

theorem outgoing_without (g : ElementGraph) (taken : List String) (id : String) :
    (g.without taken).outgoing id = (g.outgoing id).filter fun e =>
      !taken.contains e.parentId && !taken.contains e.childId := by
  unfold ElementGraph.without outgoing
  rw [List.filter_filter, List.filter_filter]
  refine List.filter_congr fun e _ => ?_
  rw [Bool.and_comm]

/-- Taking away the same elements keeps graphs alike. -/
theorem Alike.without (a : Alike g h) {taken taken' : List String}
    (ht : ∀ id, id ∈ taken ↔ id ∈ taken') : Alike (g.without taken) (h.without taken') where
  element? := by
    intro id
    rw [element?_without, element?_without, a.element?]
    simp only [ht]
  outgoing := by
    have hcontains : ∀ id, taken.contains id = taken'.contains id := by
      intro id
      rw [Bool.eq_iff_iff]
      simpa using ht id
    intro id
    rw [outgoing_without, outgoing_without, a.outgoing]
    simp only [hcontains]

end ElementGraph

/-! ## Operation graphs -/

/-- The label that a row gives an element. -/
def DrawnRelation.label? (r : DrawnRelation) (id : String) : Option String :=
  if r.parentId = id then some r.parent else if r.childId = id then some r.child else none

/-- The label that an element gets from some rows, which is that of its first mention. -/
def labelIn? (rows : List DrawnRelation) (id : String) : Option String :=
  rows.findSome? fun r => r.label? id

theorem labelIn?_cons (r : DrawnRelation) (rows : List DrawnRelation) (id : String) :
    labelIn? (r :: rows) id = (r.label? id).or (labelIn? rows id) := by
  unfold labelIn?
  rw [List.findSome?_cons]
  cases r.label? id <;> rfl

/-- Of rows in another order only the mentioned elements have to be looked at. -/
theorem labelIn?_eq_of_perm {rows rows' : List DrawnRelation} (hp : rows.Perm rows')
    (h : ∀ r ∈ rows, ∀ id ∈ r.mentions, labelIn? rows id = labelIn? rows' id) (id : String) :
    labelIn? rows id = labelIn? rows' id := by
  by_cases hid : ∃ r ∈ rows, id ∈ r.mentions
  · obtain ⟨r, hr, hid⟩ := hid
    exact h r hr id hid
  · have hnone : ∀ r ∈ rows, r.label? id = none := by
      intro r hr
      have hn : id ∉ r.mentions := fun hm => hid ⟨r, hr, hm⟩
      rw [DrawnRelation.mentions, List.mem_cons, List.mem_singleton, not_or] at hn
      rw [DrawnRelation.label?, if_neg (Ne.symm hn.1), if_neg (Ne.symm hn.2)]
    rw [labelIn?, List.findSome?_eq_none_iff.2 hnone, labelIn?,
      List.findSome?_eq_none_iff.2 fun r hr => hnone r (hp.mem_iff.2 hr)]

namespace OperationGraph

open ElementGraph

variable {g h : ElementGraph} {s t : ElementGraph × IdSource} {settings : Settings}

/-! ### Rows -/

theorem element?_addDrawn (settings : Settings) (g : ElementGraph) (r : DrawnRelation)
    (id : String) :
    (addDrawn settings g r).element? id =
      (g.element? id).or ((r.label? id).map (Element.mk id)) := by
  have hensured : (addDrawn settings g r).element? id =
      ((g.ensure r.parentId r.parent).ensure r.childId r.child).element? id := by
    unfold addDrawn
    simp only
    split
    · rfl
    · exact element?_putEdge _ _ _
  rw [hensured, element?_ensure, element?_ensure, Option.or_assoc]
  unfold DrawnRelation.label?
  by_cases hp : r.parentId = id
  · simp [hp]
  · by_cases hc : r.childId = id <;> simp [hp, hc]

/-- An element has the label of its first mention. -/
theorem element?_foldl_addDrawn (settings : Settings) (rows : List DrawnRelation)
    (g : ElementGraph) (id : String) :
    (rows.foldl (addDrawn settings) g).element? id =
      (g.element? id).or ((labelIn? rows id).map (Element.mk id)) := by
  induction rows generalizing g with
  | nil => simp [labelIn?]
  | cons r rows ih =>
    rw [List.foldl_cons, ih, element?_addDrawn, Option.or_assoc, labelIn?_cons]
    cases r.label? id <;> simp

/-- The rows that give edges, of one parent. -/
def drawnFrom (settings : Settings) (rows : List DrawnRelation) (id : String) :
    List DrawnRelation :=
  rows.filter fun r => !settings.isSecondary r.rel && r.parentId == id

/-- Of rows in another order only the parents have to be looked at. -/
theorem drawnFrom_eq_of_perm {rows rows' : List DrawnRelation} (hp : rows.Perm rows')
    (h : ∀ r ∈ rows, drawnFrom settings rows r.parentId = drawnFrom settings rows' r.parentId)
    (id : String) : drawnFrom settings rows id = drawnFrom settings rows' id := by
  by_cases hid : ∃ r ∈ rows, r.parentId = id
  · obtain ⟨r, hr, rfl⟩ := hid
    exact h r hr
  · have hnone : ∀ r ∈ rows, ¬(!settings.isSecondary r.rel && r.parentId == id) = true := by
      intro r hr hr'
      rw [Bool.and_eq_true, beq_iff_eq] at hr'
      exact hid ⟨r, hr, hr'.2⟩
    rw [drawnFrom, List.filter_eq_nil_iff.2 hnone, drawnFrom,
      List.filter_eq_nil_iff.2 fun r hr => hnone r (hp.mem_iff.2 hr)]

/-- **Rows give graphs that are alike if the elements get the same labels and the rows of each
parent have the same order.** -/
theorem alike_drawn {rows rows' : List DrawnRelation}
    (hlabel : ∀ id, labelIn? rows id = labelIn? rows' id)
    (hfrom : ∀ id, drawnFrom settings rows id = drawnFrom settings rows' id) :
    Alike (rows.foldl (addDrawn settings) .empty) (rows'.foldl (addDrawn settings) .empty) where
  element? := by
    intro id
    rw [element?_foldl_addDrawn, element?_foldl_addDrawn, hlabel]
  outgoing := by
    have hout : ∀ rows id, (rows.foldl (addDrawn settings) .empty).outgoing id =
        ((drawnFrom settings rows id).map drawnEdge).foldl put [] := by
      intro rows id
      rw [ElementGraph.outgoing, edges_addDrawn, filter_foldl_put, drawnEdges, List.filter_map,
        List.filter_filter, drawnFrom]
      refine congrArg (fun l => (List.map drawnEdge l).foldl put []) ?_
      refine List.filter_congr fun r _ => ?_
      rw [Bool.and_comm]
      rfl
    intro id
    rw [hout, hout, hfrom]

/-! ### Building -/

/-- States with graphs that are alike and the same ids left. -/
def AlikeStates (s t : ElementGraph × IdSource) : Prop :=
  Alike s.1 t.1 ∧ s.2 = t.2

theorem AlikeStates.addRelated (a : AlikeStates s t) (nodeId : String) (r : RelatedLabel) :
    AlikeStates (addRelated nodeId s r) (addRelated nodeId t r) := by
  unfold OperationGraph.addRelated
  split
  · simp only [AlikeStates, a.2, and_true]
    exact (a.1.ensure r.id r.label).putEdge _
  · exact a

theorem AlikeStates.addDesignation (a : AlikeStates s t) (d : Designation) :
    AlikeStates (addDesignation s d) (addDesignation t d) :=
  List.foldl_rel ⟨a.1.ensure d.nodeId d.label, a.2⟩ fun r _ _ _ a => a.addRelated d.nodeId r

theorem AlikeStates.bindFromArea (a : AlikeStates s t) (rootId areaId : String) :
    AlikeStates (bindFromArea rootId s areaId) (bindFromArea rootId t areaId) := by
  have hnested : hasNestedAreas s.1 areaId = hasNestedAreas t.1 areaId := by
    unfold hasNestedAreas
    rw [a.1.outgoing]
  unfold OperationGraph.bindFromArea
  simp only [a.1.contains, hnested]
  split
  · simp only [AlikeStates, a.2, and_true]
    exact a.1.putEdge _
  · exact a

theorem AlikeStates.bindInnermost (a : AlikeStates s t) {roots roots' : List String}
    (hroots : ∀ id, id ∈ roots ↔ id ∈ roots') (m : AreaMembership) :
    AlikeStates (bindInnermost roots s m) (bindInnermost roots' t m) := by
  have hcontains : roots.contains m.nodeId = roots'.contains m.nodeId := by
    rw [Bool.eq_iff_iff]
    simpa using hroots m.nodeId
  unfold OperationGraph.bindInnermost
  rw [hcontains, a.1.contains]
  split
  · exact List.foldl_rel a fun areaId _ _ _ a => a.bindFromArea m.nodeId areaId
  · exact a

theorem mem_isolatesOf_iff (a : Alike g h) (hg : g.WellFormed) (hh : h.WellFormed) {id : String} :
    id ∈ isolatesOf g ↔ id ∈ isolatesOf h := by
  have helement : ∀ e, e ∈ g.elements ↔ e ∈ h.elements := fun e => by
    rw [hg.mem_elements_iff, hh.mem_elements_iff, a.element?]
  unfold isolatesOf
  simp only [List.mem_map, List.mem_filter, helement, a.isEmpty_neighbours]

theorem mem_areaElementsOf_iff (a : Alike g h) {id : String} :
    id ∈ areaElementsOf g ↔ id ∈ areaElementsOf h := by
  unfold areaElementsOf
  simp only [List.mem_flatMap, List.mem_filter, a.mem_edges]

/-- Operation graphs that give the same instances and, but for the order, the same components. -/
structure Matches (o o' : OperationGraph) : Prop where
  graph : Alike o.graph o'.graph
  isolates : ∀ id, id ∈ o.isolates ↔ id ∈ o'.isolates
  isComponent : ∀ id, o.isComponent id = o'.isComponent id

theorem Matches.symm {o o' : OperationGraph} (m : Matches o o') : Matches o' o :=
  ⟨m.graph.symm, fun id => (m.isolates id).symm, fun id => (m.isComponent id).symm⟩

variable {drawing : Drawing} {rows : List DrawnRelation} {ids : IdSource}

theorem alikeStates_connected (ids : IdSource)
    (hlabel : ∀ id, labelIn? rows id = labelIn? drawing.relations id)
    (hfrom : ∀ id, drawnFrom settings rows id = drawnFrom settings drawing.relations id) :
    AlikeStates (connected { drawing with relations := rows } settings ids)
      (connected drawing settings ids) :=
  List.foldl_rel ⟨alike_drawn hlabel hfrom, rfl⟩ fun d _ _ _ a => a.addDesignation d

/-- **The operation graphs of a diagram match** if the elements get the same labels, the rows of
each parent have the same order, and the component roots are the same. -/
theorem matches_build (ids : IdSource)
    (hlabel : ∀ id, labelIn? rows id = labelIn? drawing.relations id)
    (hfrom : ∀ id, drawnFrom settings rows id = drawnFrom settings drawing.relations id)
    (hroots : ∀ id, id ∈ (build { drawing with relations := rows } settings ids).1.componentRoots ↔
      id ∈ (build drawing settings ids).1.componentRoots) :
    Matches (build { drawing with relations := rows } settings ids).1
      (build drawing settings ids).1 := by
  have a := alikeStates_connected ids hlabel hfrom
  refine ⟨?_, fun id => ?_, fun id => ?_⟩
  · exact (List.foldl_rel a fun m _ _ _ a => a.bindInnermost hroots m).1
  · exact mem_isolatesOf_iff a.1 (wellFormed_connected _ _ _) (wellFormed_connected _ _ _)
  · have harea : id ∈ (build { drawing with relations := rows } settings ids).1.areaElements ↔
        id ∈ (build drawing settings ids).1.areaElements := mem_areaElementsOf_iff a.1
    unfold isComponent
    rw [Bool.eq_iff_iff]
    simp [hroots id, harea]

end OperationGraph

end Ontogram
