import Ontogram.Proofs.Diagram.Mentions
import Ontogram.Proofs.Diagram.Overwriting

/-!
# What component roots are bound from

A component root is bound from each container that it is listed in, if the container is an element
and no connection leads from it to another container. The connections decide this, and not where the
root is listed besides: a container that holds another one binds no root, be the root in that one or
not.

* `hasNestedAreas_connected` — connections alone make a container hold others.
* `BoundFrom` — what a step that binds from containers does to the graph.
* `containsEdge_componentRoot_iff` — which edges lead to a component root.
* `containers_hold_elsewhere` — a root in no inner container, and in an outer one that binds it not.
-/

namespace Ontogram

/-- A designation connects a container to another one. -/
def Drawing.Connects (d : Drawing) (a c : String) : Prop :=
  ∃ x ∈ d.designations, x.nodeId = a ∧ ∃ r ∈ x.related, Label.isContainer r.label = true ∧ r.id = c

namespace OperationGraph

open ElementGraph

variable {g g' : ElementGraph} {s : ElementGraph × IdSource} {a r : String}

/-! ## Containers that hold others -/

theorem hasNestedAreas_iff :
    hasNestedAreas g a = true ↔ ∃ e ∈ g.edges, e.parentId = a ∧ e.isAreaConnection = true := by
  unfold hasNestedAreas
  simp only [List.any_eq_true, mem_outgoing, and_assoc]

theorem hasNestedAreas_ensure (id content : String) :
    hasNestedAreas (g.ensure id content) a = hasNestedAreas g a := by
  unfold hasNestedAreas outgoing
  rw [edges_ensure]

/-- A connection makes its container hold another one, and no other edge matters. -/
theorem hasNestedAreas_putEdge_connection (p c relId : String) :
    hasNestedAreas (g.putEdge (bindEdge p c relId true)) a = true ↔
      hasNestedAreas g a = true ∨ p = a := by
  simp only [hasNestedAreas_iff, edges_putEdge, mem_put_iff]
  constructor
  · rintro ⟨e, rfl | ⟨he, -⟩, hp, harea⟩
    · exact Or.inr hp
    · exact Or.inl ⟨e, he, hp, harea⟩
  · rintro (⟨e, he, hp, harea⟩ | rfl)
    · by_cases hends : e.ends = (bindEdge p c relId true).ends
      · exact ⟨_, Or.inl rfl, (congrArg Prod.fst hends).symm.trans hp, rfl⟩
      · exact ⟨e, Or.inr ⟨he, hends⟩, hp, harea⟩
    · exact ⟨_, Or.inl rfl, rfl, rfl⟩

theorem hasNestedAreas_addRelated (nodeId : String) (s : ElementGraph × IdSource)
    (x : RelatedLabel) : hasNestedAreas (addRelated nodeId s x).1 a = true ↔
      hasNestedAreas s.1 a = true ∨ Label.isContainer x.label = true ∧ nodeId = a := by
  unfold addRelated
  split
  · next hx => simp only [hasNestedAreas_putEdge_connection, hasNestedAreas_ensure, hx, true_and]
  · next hx => simp [hx]

/-- What each step adds to the containers that hold others, all steps add. -/
theorem hasNestedAreas_foldl {α : Type} {step : ElementGraph × IdSource → α → ElementGraph × IdSource}
    {P : α → Prop} (hstep : ∀ s x, hasNestedAreas (step s x).1 a = true ↔
      hasNestedAreas s.1 a = true ∨ P x) (xs : List α) (s : ElementGraph × IdSource) :
    hasNestedAreas (xs.foldl step s).1 a = true ↔
      hasNestedAreas s.1 a = true ∨ ∃ x ∈ xs, P x := by
  induction xs generalizing s with
  | nil => simp
  | cons x xs ih => rw [List.foldl_cons, ih, hstep, or_assoc, List.exists_mem_cons_iff]

/-- No drawn relation makes a container hold another one. -/
theorem hasNestedAreas_drawn (settings : Settings) (rows : List DrawnRelation) :
    hasNestedAreas (rows.foldl (addDrawn settings) .empty) a = false := by
  rw [Bool.eq_false_iff, ne_eq, hasNestedAreas_iff, edges_addDrawn]
  rintro ⟨e, he, -, harea⟩
  obtain ⟨r, -, -, rfl⟩ :=
    mem_drawnEdges.1 ((mem_of_mem_foldl_put he).resolve_right List.not_mem_nil)
  cases harea

/-- **Connections alone make a container hold others.** -/
theorem hasNestedAreas_connected (drawing : Drawing) (settings : Settings) (ids : IdSource) :
    hasNestedAreas (connected drawing settings ids).1 a = true ↔ ∃ c, drawing.Connects a c := by
  have hdesignation : ∀ (s : ElementGraph × IdSource) (d : Designation),
      hasNestedAreas (addDesignation s d).1 a = true ↔ hasNestedAreas s.1 a = true ∨
        ∃ x ∈ d.related, Label.isContainer x.label = true ∧ d.nodeId = a := by
    intro s d
    unfold addDesignation
    rw [hasNestedAreas_foldl (hasNestedAreas_addRelated d.nodeId), hasNestedAreas_ensure]
  unfold connected
  rw [hasNestedAreas_foldl hdesignation, hasNestedAreas_drawn,
    or_iff_right Bool.false_ne_true]
  unfold Drawing.Connects
  grind

/-! ## Binding from containers -/

/-- No connection leads to a component root, and the roots are elements. -/
structure Rooted (roots : List String) (g : ElementGraph) : Prop where
  elements : ∀ r ∈ roots, r ∈ g.ids
  apart : ∀ e ∈ g.edges, e.isAreaConnection = true → e.childId ∉ roots

/-- Of some pairs of a container and a root, those are bound whose container is an element that
holds no other container. No element is added, and no container comes to hold another one. -/
structure BoundFrom (pairs : List (String × String)) (g g' : ElementGraph) : Prop where
  ids : g'.ids = g.ids
  nested : ∀ a, hasNestedAreas g' a = hasNestedAreas g a
  containsEdge : ∀ a r, g'.containsEdge a r = true ↔ g.containsEdge a r = true ∨
    (a, r) ∈ pairs ∧ a ∈ g.ids ∧ hasNestedAreas g a = false
  binds : ∀ e ∈ g'.edges,
    e ∈ g.edges ∨ ∃ a r relId, (a, r) ∈ pairs ∧ e = bindEdge a r relId false

variable {roots : List String} {pairs more : List (String × String)}

theorem BoundFrom.refl (h : ∀ p ∈ pairs, p.1 ∈ g.ids → hasNestedAreas g p.1 = true) :
    BoundFrom pairs g g where
  ids := rfl
  nested := fun _ => rfl
  containsEdge := by
    intro a r
    refine (or_iff_left ?_).symm
    rintro ⟨hp, ha, hn⟩
    rw [h (a, r) hp ha] at hn
    cases hn
  binds := fun _ he => Or.inl he

theorem BoundFrom.trans {g'' : ElementGraph} (h : BoundFrom pairs g g')
    (h' : BoundFrom more g' g'') : BoundFrom (pairs ++ more) g g'' where
  ids := h'.ids.trans h.ids
  nested := fun a => (h'.nested a).trans (h.nested a)
  containsEdge := by
    intro a r
    rw [h'.containsEdge, h.containsEdge, h.ids, h.nested, List.mem_append, or_assoc,
      ← or_and_right]
  binds := by
    intro e he
    rcases h'.binds e he with he | ⟨a, r, relId, hp, rfl⟩
    · exact (h.binds e he).imp id fun ⟨a, r, relId, hp, he⟩ =>
        ⟨a, r, relId, List.mem_append_left more hp, he⟩
    · exact Or.inr ⟨a, r, relId, List.mem_append_right pairs hp, rfl⟩

theorem Rooted.bind (h : Rooted roots g) (hb : BoundFrom pairs g g') : Rooted roots g' where
  elements := fun r hr => hb.ids ▸ h.elements r hr
  apart := by
    intro e he harea
    rcases hb.binds e he with he | ⟨_, _, _, -, rfl⟩
    · exact h.apart e he harea
    · cases harea

theorem containsEdge_putEdge {e : OperationEdge} {p c : String} :
    (g.putEdge e).containsEdge p c = true ↔ g.containsEdge p c = true ∨ e.ends = (p, c) := by
  rw [containsEdge_iff, containsEdge_iff, ends_putEdge]
  split
  · next he =>
    rw [containsEdge_iff] at he
    exact (or_iff_left_of_imp fun h => h ▸ he).symm
  · rw [List.mem_append, List.mem_singleton, eq_comm]

/-- A bind to a root takes the place of no connection. -/
theorem hasNestedAreas_putEdge_bind (h : Rooted roots g) (hr : r ∈ roots) (c relId : String) :
    hasNestedAreas (g.putEdge (bindEdge c r relId false)) a = hasNestedAreas g a := by
  rw [Bool.eq_iff_iff, hasNestedAreas_iff, hasNestedAreas_iff]
  simp only [edges_putEdge, mem_put_iff]
  constructor
  · rintro ⟨e, rfl | ⟨he, -⟩, hp, harea⟩
    · cases harea
    · exact ⟨e, he, hp, harea⟩
  · rintro ⟨e, he, hp, harea⟩
    refine ⟨e, Or.inr ⟨he, fun hends => h.apart e he harea ?_⟩, hp, harea⟩
    rw [(Prod.mk.inj hends).2]
    exact hr

/-- **One container**: it binds the root if it is an element that holds no other container. -/
theorem boundFrom_bindFromArea (h : Rooted roots s.1) (hr : r ∈ roots) (a : String) :
    BoundFrom [(a, r)] s.1 (bindFromArea r s a).1 := by
  unfold bindFromArea
  simp only
  split
  · next hc =>
    rw [Bool.and_eq_true, contains_iff, Bool.not_eq_true'] at hc
    refine ⟨ids_putEdge _, fun _ => hasNestedAreas_putEdge_bind h hr _ _, fun b q => ?_, ?_⟩
    · rw [containsEdge_putEdge, List.mem_singleton]
      refine or_congr_right ⟨fun hends => ?_, fun h => h.1.symm⟩
      obtain rfl := (Prod.mk.inj hends).1
      exact ⟨hends.symm, hc⟩
    · intro e he
      exact (mem_edges_putEdge he).symm.imp id fun he => ⟨a, r, _, List.mem_singleton_self _, he⟩
  · next hc =>
    refine .refl fun p hp ha => ?_
    obtain rfl := List.mem_singleton.1 hp
    rw [Bool.and_eq_true, contains_iff, Bool.not_eq_true', not_and, Bool.not_eq_false] at hc
    exact hc ha

/-- What each step binds, all steps bind. -/
theorem boundFrom_foldl {α : Type} {step : ElementGraph × IdSource → α → ElementGraph × IdSource}
    {pairs : α → List (String × String)}
    (hstep : ∀ s x, Rooted roots s.1 → BoundFrom (pairs x) s.1 (step s x).1) (xs : List α)
    (h : Rooted roots s.1) : BoundFrom (xs.flatMap pairs) s.1 (xs.foldl step s).1 := by
  induction xs generalizing s with
  | nil => exact .refl nofun
  | cons x xs ih =>
    rw [List.foldl_cons, List.flatMap_cons]
    exact (hstep s x h).trans (ih (h.bind (hstep s x h)))

/-- The pairs of the containers of an element and the element, if it is a root. -/
def listedPairs (roots : List String) (m : AreaMembership) : List (String × String) :=
  if roots.contains m.nodeId then m.areaIds.map fun a => (a, m.nodeId) else []

/-- **The containers of one element.** -/
theorem boundFrom_bindInnermost (h : Rooted roots s.1) (m : AreaMembership) :
    BoundFrom (listedPairs roots m) s.1 (bindInnermost roots s m).1 := by
  unfold bindInnermost listedPairs
  by_cases hr : m.nodeId ∈ roots
  · rw [List.contains_iff_mem.2 hr, contains_iff.2 (h.elements m.nodeId hr), List.map_eq_flatMap]
    exact boundFrom_foldl (fun s a hs => boundFrom_bindFromArea hs hr a) m.areaIds h
  · have hnot : roots.contains m.nodeId = false := by simpa using hr
    rw [hnot]
    exact .refl nofun

theorem mem_listedPairs {m : AreaMembership} :
    (a, r) ∈ listedPairs roots m ↔ r ∈ roots ∧ m.nodeId = r ∧ a ∈ m.areaIds := by
  unfold listedPairs
  simp only [List.mem_ite_nil_right, List.contains_iff_mem, List.mem_map, Prod.mk.injEq]
  grind

/-! ## Component roots -/

theorem rooted_connected (drawing : Drawing) (settings : Settings) (ids : IdSource) :
    Rooted (componentRootsOf (connected drawing settings ids).1)
      (connected drawing settings ids).1 where
  elements := by
    intro r hr
    obtain ⟨members, hm, hhead⟩ := List.mem_filterMap.1 (List.mem_filter.1 hr).1
    exact mem_ids_of_mem_component hm (head?_eq_some hhead).1
  apart := fun _ he _ => ExecutionPlan.notMem_componentRoots he

/--
**Which edges lead to a component root.**

A container leads to a component root if and only if the root is listed in it, it is an element, and
no designation connects it to another container. The edge is a bind that was not drawn.
-/
theorem containsEdge_componentRoot_iff (drawing : Drawing) (settings : Settings) (ids : IdSource)
    {r : String} (hr : r ∈ (build drawing settings ids).1.componentRoots) :
    let g := (build drawing settings ids).1.graph
    (∀ a, g.containsEdge a r = true ↔ (∃ m ∈ drawing.areas, m.nodeId = r ∧ a ∈ m.areaIds) ∧
      a ∈ g.ids ∧ ¬∃ c, drawing.Connects a c) ∧
    ∀ e ∈ g.edges, e.childId = r → ∃ relId, e = bindEdge e.parentId r relId false := by
  intro g
  let g₀ := (connected drawing settings ids).1
  have hb : BoundFrom (drawing.areas.flatMap (listedPairs (componentRootsOf g₀))) g₀ g :=
    boundFrom_foldl (fun _ m hs => boundFrom_bindInnermost hs m) drawing.areas
      (rooted_connected drawing settings ids)
  have hnone : ∀ e ∈ g₀.edges, e.childId ≠ r := fun e he hc =>
    ExecutionPlan.notMem_componentRoots he (hc ▸ hr)
  constructor
  · intro a
    have hlisted : (a, r) ∈ drawing.areas.flatMap (listedPairs (componentRootsOf g₀)) ↔
        ∃ m ∈ drawing.areas, m.nodeId = r ∧ a ∈ m.areaIds := by
      have hroot : r ∈ componentRootsOf g₀ := hr
      simp only [List.mem_flatMap, mem_listedPairs, and_iff_right hroot]
    have hnot : ¬g₀.containsEdge a r = true := by
      rw [containsEdge_iff, List.mem_map]
      rintro ⟨e, he, hends⟩
      exact hnone e he (congrArg Prod.snd hends)
    rw [hb.containsEdge, or_iff_right hnot, hlisted, hb.ids, Bool.eq_false_iff, ne_eq,
      hasNestedAreas_connected]
  · intro e he hc
    obtain ⟨b, q, relId, -, rfl⟩ := (hb.binds e he).resolve_left fun h => hnone e h hc
    exact ⟨relId, hc ▸ rfl⟩

/-- A component root, and a container that holds another one. -/
def heldIn (areaIds : List String) : Drawing :=
  ((Drawing.empty.relate "r" "R[T|t_]" "mds:bind" "x" "X[T|t_]").designate "o" "~O[T|t_]"
    [⟨"i", "~I[T|t_]"⟩]).inside "r" areaIds

/-- A root in both containers is bound from the inner one only. -/
theorem containsEdge_componentRoot_iff_heldIn :
    let o := (build (heldIn ["o", "i"]) .standard (.ofHeader "gen")).1
    "r" ∈ o.componentRoots ∧ o.graph.containsEdge "i" "r" = true ∧
      o.graph.containsEdge "o" "r" = false := by
  intro o
  have hr : "r" ∈ o.componentRoots := by decide +kernel
  obtain ⟨hiff, -⟩ := containsEdge_componentRoot_iff (heldIn ["o", "i"]) .standard
    (.ofHeader "gen") hr
  refine ⟨hr, (hiff "i").2 ⟨by decide, by decide +kernel, ?_⟩, ?_⟩
  · rintro ⟨c, d, hd, hi, -⟩
    rw [List.mem_singleton.1 hd] at hi
    exact absurd hi (by decide)
  · rw [Bool.eq_false_iff]
    exact fun h => ((hiff "o").1 h).2.2 ⟨"i", _, List.mem_singleton_self _, rfl, _,
      List.mem_singleton_self _, by decide +kernel, rfl⟩

/-- Says that a component root is bound from each of its containers that no other container of the
root is below. -/
def BindsInnermostOfListed (drawing : Drawing) (settings : Settings) (ids : IdSource) : Prop :=
  let o := (build drawing settings ids).1
  ∀ r ∈ o.componentRoots, ∀ m ∈ drawing.areas, m.nodeId = r → ∀ a ∈ m.areaIds, a ≠ r →
    a ∈ o.graph.ids →
    (∀ n ∈ drawing.areas, n.nodeId = r → ∀ b ∈ n.areaIds, b ≠ a →
      ¬Relation.TransGen drawing.Connects a b) →
    o.graph.containsEdge a r = true

/-- **A container that holds another one binds no root**, be the root in the inner one or not. -/
theorem containers_hold_elsewhere :
    ¬BindsInnermostOfListed (heldIn ["o"]) .standard (.ofHeader "gen") := by
  intro h
  have hedge := h "r" (by decide +kernel) ⟨"r", ["o"]⟩ (by decide) rfl "o" (by decide) (by decide)
    (by decide +kernel) fun n hn _ b hb hne => by
      rw [List.mem_singleton.1 hn] at hb
      exact absurd (List.mem_singleton.1 hb) hne
  revert hedge
  decide +kernel

end OperationGraph

end Ontogram
