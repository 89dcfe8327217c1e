import Ontogram.Proofs.Diagram.ElementGraph
import Ontogram.Proofs.FirstMentions

/-!
# The elements of a diagram in the order of their first mention

A drawn relation mentions its two ends, secondary or not, and a designation mentions its element and
the containers that are related to it. Areas mention nobody: a container that is mentioned only there
is no element.

Each step of the building adds what it mentions behind the elements there are, unless it is there.
So the elements are the mentions without repetitions.

* `foldl_mentions` — what a run of steps mentions.
* `ids_build` — the elements of the operation graph of a diagram.
-/

namespace Ontogram

/-! ## Mentions -/

/-- The ids that a drawn relation mentions. -/
def DrawnRelation.mentions (r : DrawnRelation) : List String :=
  [r.parentId, r.childId]

/-- The id that a related label mentions, if the label is that of a container. -/
def RelatedLabel.mentions (r : RelatedLabel) : List String :=
  if Label.isContainer r.label then [r.id] else []

/-- The ids that a designation mentions. -/
def Designation.mentions (d : Designation) : List String :=
  d.nodeId :: d.related.flatMap RelatedLabel.mentions

/-- The ids that a drawing mentions. -/
def Drawing.mentions (d : Drawing) : List String :=
  d.relations.flatMap DrawnRelation.mentions ++ d.designations.flatMap Designation.mentions

/-- The ids that a drawing mentions, each once, in the order of their first mention. -/
def Drawing.elementIds (d : Drawing) : List String :=
  d.mentions.eraseDups

theorem Drawing.mem_elementIds {d : Drawing} {id : String} :
    id ∈ d.elementIds ↔ id ∈ d.mentions :=
  List.mem_eraseDups

/-- Steps that each add what they mention add up to all that they mention. -/
theorem foldl_mentions {σ β : Type} (ids : σ → List String) (step : σ → β → σ)
    (mentions : β → List String)
    (hstep : ∀ s ms b, ids s = ms.eraseDups → ids (step s b) = (ms ++ mentions b).eraseDups)
    (bs : List β) {s : σ} {ms : List String} (h : ids s = ms.eraseDups) :
    ids (bs.foldl step s) = (ms ++ bs.flatMap mentions).eraseDups := by
  induction bs generalizing s ms with
  | nil => rw [List.flatMap_nil, List.append_nil, List.foldl_nil, h]
  | cons b bs ih =>
    rw [List.flatMap_cons, ← List.append_assoc]
    exact ih (hstep s ms b h)

/-! ## Steps -/

namespace OperationGraph

open ElementGraph

variable {g : ElementGraph} {s : ElementGraph × IdSource} {ms : List String}

theorem ids_ensure (h : g.ids = ms.eraseDups) (id content : String) :
    (g.ensure id content).ids = (ms ++ [id]).eraseDups := by
  have hmem : g.contains id = true ↔ id ∈ ms := by
    rw [contains_iff, h, List.mem_eraseDups]
  rw [eraseDups_append_singleton, ensure]
  by_cases hid : id ∈ ms
  · rw [if_pos (hmem.2 hid), if_pos hid, h]
  · rw [if_neg (mt hmem.1 hid), if_neg hid, ← h]
    exact List.map_append

/-- A drawn relation mentions its ends, also if it is secondary. -/
theorem ids_addDrawn (settings : Settings) (h : g.ids = ms.eraseDups) (r : DrawnRelation) :
    (addDrawn settings g r).ids = (ms ++ r.mentions).eraseDups := by
  have hends := ids_ensure (ids_ensure h r.parentId r.parent) r.childId r.child
  rw [List.append_assoc] at hends
  unfold addDrawn
  simp only
  split
  · exact hends
  · rw [ids_putEdge]
    exact hends

theorem ids_addRelated (nodeId : String) (h : s.1.ids = ms.eraseDups) (r : RelatedLabel) :
    (addRelated nodeId s r).1.ids = (ms ++ r.mentions).eraseDups := by
  unfold addRelated RelatedLabel.mentions
  split
  · show ((s.1.ensure r.id r.label).putEdge _).ids = _
    rw [ids_putEdge]
    exact ids_ensure h r.id r.label
  · rw [List.append_nil]
    exact h

theorem ids_addDesignation (h : s.1.ids = ms.eraseDups) (d : Designation) :
    (addDesignation s d).1.ids = (ms ++ d.mentions).eraseDups := by
  have hd := foldl_mentions (fun s : ElementGraph × IdSource => s.1.ids) (addRelated d.nodeId)
    RelatedLabel.mentions (fun _ _ r hs => ids_addRelated d.nodeId hs r) d.related
    (s := (s.1.ensure d.nodeId d.label, s.2)) (ids_ensure h d.nodeId d.label)
  rwa [List.append_assoc] at hd

theorem ids_connected (drawing : Drawing) (settings : Settings) (ids : IdSource) :
    (connected drawing settings ids).1.ids = drawing.elementIds := by
  have hempty : ElementGraph.empty.ids = ([] : List String).eraseDups := rfl
  have hdrawn := foldl_mentions ElementGraph.ids (addDrawn settings) DrawnRelation.mentions
    (fun _ _ r hg => ids_addDrawn settings hg r) drawing.relations hempty
  exact foldl_mentions (fun s : ElementGraph × IdSource => s.1.ids) addDesignation
    Designation.mentions (fun _ _ d hs => ids_addDesignation hs d) drawing.designations
    (s := (drawing.relations.foldl (addDrawn settings) .empty, ids)) hdrawn

/-- Binds from containers mention nobody. -/
theorem elements_bindFromArea (rootId : String) (s : ElementGraph × IdSource) (areaId : String) :
    (bindFromArea rootId s areaId).1.elements = s.1.elements := by
  unfold bindFromArea
  simp only
  split
  · exact elements_putEdge _
  · rfl

theorem elements_bindInnermost (roots : List String) (s : ElementGraph × IdSource)
    (m : AreaMembership) : (bindInnermost roots s m).1.elements = s.1.elements := by
  unfold bindInnermost
  split
  · exact List.foldlRecOn (motive := fun t : ElementGraph × IdSource =>
      t.1.elements = s.1.elements) _ _ rfl fun t ht a _ =>
        (elements_bindFromArea m.nodeId t a).trans ht
  · rfl

/-- Binds change no element. -/
theorem elements_build (drawing : Drawing) (settings : Settings) (ids : IdSource) :
    (build drawing settings ids).1.graph.elements =
      (connected drawing settings ids).1.elements :=
  List.foldlRecOn (motive := fun t : ElementGraph × IdSource =>
    t.1.elements = (connected drawing settings ids).1.elements) _ _ rfl fun t ht m _ =>
      (elements_bindInnermost _ t m).trans ht

/-- **The elements of a diagram are what it mentions, in the order of their first mention.** -/
theorem ids_build (drawing : Drawing) (settings : Settings) (ids : IdSource) :
    (build drawing settings ids).1.graph.ids = drawing.elementIds := by
  rw [← ids_connected drawing settings ids]
  exact congrArg (List.map Element.id) (elements_build drawing settings ids)

end OperationGraph

end Ontogram
