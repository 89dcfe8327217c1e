import Ontogram.Proofs.Diagram.Partition

/-!
# Where secondary relations belong

The ends of a secondary relation are elements of the diagram, so each is in one component or an
isolate. The relation belongs to the component of its parent, or else to that of its child, and to
none exactly if both are isolates.

* `componentIndex?_eq_some_iff`, `owner?_eq_some_iff`, `owner?_eq_none_iff` — what the look-ups
  give.
* `flatMap_owned_perm` — what belongs to positions is there once.
* `ofDrawing_places_secondary` — the secondary relations of the plan of a diagram.
-/

namespace Ontogram.ExecutionPlan

open ElementGraph OperationGraph

variable {groups : List (List String)} {isolates : List String} {r : SecondaryRelation} {i : Nat}

/-! ## Owners -/

/-- An element is found in the group that it is in, if the groups have nothing in common. -/
theorem componentIndex?_eq_some_iff (hd : groups.flatten.Nodup) {id : String} :
    componentIndex? groups id = some i ↔ ∃ members, groups[i]? = some members ∧ id ∈ members := by
  unfold componentIndex?
  rw [List.findIdx?_eq_some_iff_getElem]
  constructor
  · rintro ⟨hi, hid, -⟩
    exact ⟨groups[i], List.getElem?_eq_getElem hi, by simpa using hid⟩
  · rintro ⟨members, hm, hid⟩
    obtain ⟨hi, rfl⟩ := List.getElem?_eq_some_iff.1 hm
    refine ⟨hi, by simpa using hid, fun j hj => ?_⟩
    -- An earlier group with the element would have it in common with this one.
    have hapart := List.pairwise_iff_getElem.1 (List.nodup_flatten.1 hd).2 j i (by omega) hi hj
    simpa using fun hid' => hapart hid' hid

theorem componentIndex?_eq_none_iff {id : String} :
    componentIndex? groups id = none ↔ ∀ members ∈ groups, id ∉ members := by
  unfold componentIndex?
  simp

/-- The parent decides, and the child only if no group has the parent. -/
theorem owner?_eq_some_iff (hd : groups.flatten.Nodup)
    (hp : (∀ members ∈ groups, r.parentId ∉ members) → r.parentId ∈ isolates) :
    owner? groups isolates r = some i ↔ ∃ members, groups[i]? = some members ∧
      (r.parentId ∈ members ∨
        (∀ members ∈ groups, r.parentId ∉ members) ∧ r.childId ∈ members) := by
  unfold owner?
  split
  · next j hj =>
    obtain ⟨own, hown, hmem⟩ := (componentIndex?_eq_some_iff hd).1 hj
    rw [← hj, componentIndex?_eq_some_iff hd]
    constructor
    · rintro ⟨members, hm, hparent⟩
      exact ⟨members, hm, Or.inl hparent⟩
    · rintro ⟨members, hm, hparent | ⟨hno, -⟩⟩
      · exact ⟨members, hm, hparent⟩
      · exact absurd hmem (hno own (List.mem_of_getElem? hown))
  · next hnone =>
    have hno := componentIndex?_eq_none_iff.1 hnone
    rw [if_pos (by simpa using hp hno), componentIndex?_eq_some_iff hd]
    constructor
    · rintro ⟨members, hm, hchild⟩
      exact ⟨members, hm, Or.inr ⟨hno, hchild⟩⟩
    · rintro ⟨members, hm, hparent | ⟨-, hchild⟩⟩
      · exact absurd hparent (hno members (List.mem_of_getElem? hm))
      · exact ⟨members, hm, hchild⟩

/-- Only a relation between isolates belongs nowhere. -/
theorem owner?_eq_none_iff
    (hp : (∀ members ∈ groups, r.parentId ∉ members) ↔ r.parentId ∈ isolates)
    (hc : (∀ members ∈ groups, r.childId ∉ members) ↔ r.childId ∈ isolates) :
    owner? groups isolates r = none ↔ r.parentId ∈ isolates ∧ r.childId ∈ isolates := by
  unfold owner?
  split
  · next j hj =>
    refine iff_of_false nofun fun h => ?_
    rw [componentIndex?_eq_none_iff.2 (hp.2 h.1)] at hj
    cases hj
  · next hnone =>
    have hparent := hp.1 (componentIndex?_eq_none_iff.1 hnone)
    rw [if_pos (by simpa using hparent), componentIndex?_eq_none_iff, hc]
    exact (and_iff_right hparent).symm

/-! ## Each relation once -/

/-- What belongs to the first positions is there once. -/
theorem flatMap_owned_perm {α : Type} (owner : α → Option Nat) (n : Nat) (rows : List α) :
    ((List.range n).flatMap fun i => rows.filter fun r => owner r = some i).Perm
      (rows.filter fun r => (owner r).any (· < n)) := by
  induction n with
  | zero => simp
  | succ n ih =>
    rw [List.range_succ, List.flatMap_append, List.flatMap_singleton]
    refine (ih.append_right _).trans ?_
    -- What belongs to the positions so far is cut into the last one and the others.
    have hcut := List.filter_append_perm (fun r => (owner r).any (· < n))
      (rows.filter fun r => (owner r).any (· < n + 1))
    rw [List.filter_filter, List.filter_filter] at hcut
    have hbefore : ∀ r ∈ rows, ((owner r).any (· < n) && (owner r).any (· < n + 1)) =
        (owner r).any (· < n) := by
      intro r _
      cases owner r with
      | none => rfl
      | some i =>
        rw [Bool.eq_iff_iff]
        simp
        omega
    have hlast : ∀ r ∈ rows, (!(owner r).any (· < n) && (owner r).any (· < n + 1)) =
        decide (owner r = some n) := by
      intro r _
      cases owner r with
      | none => rfl
      | some i =>
        rw [Bool.eq_iff_iff]
        simp
        omega
    rwa [List.filter_congr hbefore, List.filter_congr hlast] at hcut

/-- Every relation is unplaced or belongs to one component. -/
theorem secondary_append_unplaced_perm (o : OperationGraph) :
    ((ofGraph o).components.flatMap ComponentPlan.secondary ++ (ofGraph o).unplaced).Perm
      o.secondary := by
  let owner := owner? (plannedGraph o).components o.isolates
  have hsecondary : (ofGraph o).components.flatMap ComponentPlan.secondary =
      (List.range (plannedGraph o).components.length).flatMap fun i =>
        o.secondary.filter fun r => owner r = some i := by
    rw [List.range_eq_range', ← List.zipIdx_map_snd 0 (plannedGraph o).components,
      List.flatMap_map]
    exact List.flatMap_map _ _ _
  have hplaced : ∀ r ∈ o.secondary, (owner r).any (· < (plannedGraph o).components.length) =
      !decide (owner r = none) := by
    intro r _
    cases hw : owner r with
    | none => rfl
    | some i =>
      have hi : i < (plannedGraph o).components.length := owner?_lt hw
      simp [hi]
  rw [hsecondary]
  refine ((flatMap_owned_perm owner _ _).append_right _).trans ?_
  rw [List.filter_congr hplaced]
  exact List.perm_append_comm.trans
    (List.filter_append_perm (fun r => decide (owner r = none)) o.secondary)

/-- A component has the secondary relations that belong to its position. -/
theorem secondary_of_mem_components {o : OperationGraph} {c : ComponentPlan}
    (hc : c ∈ (ofGraph o).components) :
    ∃ i, (plannedGraph o).components[i]? = some c.nodes ∧
      c.secondary = o.secondary.filter fun r =>
        owner? (plannedGraph o).components o.isolates r = some i := by
  obtain ⟨⟨members, i⟩, hm, rfl⟩ := List.mem_map.1 hc
  refine ⟨i, ?_, rfl⟩
  simp only [nodes_componentPlan]
  exact List.mem_zipIdx_iff_getElem?.1 hm

/-! ## The secondary relations of a diagram -/

variable {drawing : Drawing} {settings : Settings} {ids : IdSource}

/-- The secondary relations are the drawn ones whose relation the settings list. -/
theorem secondaryOf_eq (settings : Settings) (relations : List DrawnRelation) :
    secondaryOf settings relations =
      (relations.filter fun r => Text.trim r.rel ∈ settings.secondaryRels).map fun r =>
        ⟨r.relId, r.parentId, r.childId, Text.trim r.rel⟩ := by
  unfold secondaryOf Settings.isSecondary
  simp only [List.contains_eq_mem]

/-- The ends of a secondary relation are elements. -/
theorem ends_mem_elementIds (hr : r ∈ secondaryOf settings drawing.relations) :
    r.parentId ∈ drawing.elementIds ∧ r.childId ∈ drawing.elementIds := by
  obtain ⟨row, hrow, rfl⟩ := List.mem_map.1 hr
  have hmentioned : ∀ id ∈ row.mentions, id ∈ drawing.elementIds := by
    intro id hid
    refine Drawing.mem_elementIds.2 (List.mem_append_left _ ?_)
    exact List.mem_flatMap.2 ⟨row, (List.mem_filter.1 hrow).1, hid⟩
  exact ⟨hmentioned _ List.mem_cons_self, hmentioned _ (List.mem_cons_of_mem _ List.mem_cons_self)⟩

/-- An element that no component has is an isolate. -/
theorem forall_notMem_components_iff {id : String} (hid : id ∈ drawing.elementIds) :
    (∀ members ∈ (plannedGraph (build drawing settings ids).1).components, id ∉ members) ↔
      id ∈ (build drawing settings ids).1.isolates := by
  constructor
  · intro hno
    by_contra hi
    obtain ⟨members, hm, hid⟩ := exists_component (mem_plannedGraph_iff.2 ⟨hid, hi⟩)
    exact hno members hm hid
  · intro hi members hm hid
    exact (mem_plannedGraph_iff.1 (mem_ids_of_mem_component hm hid)).2 hi

/--
**Each secondary relation has one place, and its ends decide which.**

The secondary relations are the drawn ones whose relation, trimmed, is among the secondary ones of
the settings, each with its id and its ends. A component has those whose parent is one of its
elements, and those whose parent is in no component but whose child is one of its elements. Those
between isolates are unplaced. All lists are in the order in which the relations were drawn.
-/
theorem ofDrawing_places_secondary (drawing : Drawing) (settings : Settings) (ids : IdSource) :
    let p := ofDrawing drawing settings ids
    let rows : List SecondaryRelation :=
      (drawing.relations.filter fun r => Text.trim r.rel ∈ settings.secondaryRels).map fun r =>
        { relId := r.relId, parentId := r.parentId, childId := r.childId, rel := Text.trim r.rel }
    (p.components.flatMap ComponentPlan.secondary ++ p.unplaced).Perm rows ∧
    (∀ c ∈ p.components, c.secondary = rows.filter fun r => r.parentId ∈ c.nodes ∨
      (∀ d ∈ p.components, r.parentId ∉ d.nodes) ∧ r.childId ∈ c.nodes) ∧
    p.unplaced = rows.filter fun r => r.parentId ∈ p.isolates ∧ r.childId ∈ p.isolates := by
  intro p rows
  have hrows : rows = secondaryOf settings drawing.relations := (secondaryOf_eq settings _).symm
  rw [hrows]
  let g := plannedGraph (build drawing settings ids).1
  have hg : g.WellFormed := wellFormed_plannedGraph drawing settings ids
  have hd : g.components.flatten.Nodup := g.flatten_components_perm.nodup_iff.2 hg.ids_nodup
  have hnodes : p.components.map ComponentPlan.nodes = g.components := nodes_ofGraph _
  refine ⟨secondary_append_unplaced_perm _, fun c hc => ?_, ?_⟩
  · obtain ⟨i, hi, hsecondary⟩ := secondary_of_mem_components hc
    rw [hsecondary]
    refine List.filter_congr fun r hr => decide_eq_decide.2 ?_
    have hparent : (∀ members ∈ g.components, r.parentId ∉ members) ↔ r.parentId ∈ p.isolates :=
      forall_notMem_components_iff (ends_mem_elementIds hr).1
    have hno : (∀ d ∈ p.components, r.parentId ∉ d.nodes) ↔
        ∀ members ∈ g.components, r.parentId ∉ members := by
      rw [← hnodes]
      simp
    refine (owner?_eq_some_iff hd hparent.1).trans ?_
    rw [hno]
    constructor
    · rintro ⟨members, hm, h⟩
      rw [hi] at hm
      exact Option.some.inj hm ▸ h
    · intro h
      exact ⟨c.nodes, hi, h⟩
  · refine List.filter_congr fun r hr => decide_eq_decide.2 ?_
    obtain ⟨hp, hc⟩ := ends_mem_elementIds hr
    exact owner?_eq_none_iff (forall_notMem_components_iff hp) (forall_notMem_components_iff hc)

end Ontogram.ExecutionPlan
