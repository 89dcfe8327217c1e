import Ontogram.Proofs.Diagram.Edges
import Ontogram.Proofs.Hierarchies

/-!
# Components without root

A component has no root if an edge leads to each of its elements. Rows and designations that form no
cycle leave an element in every component that they lead not to, but that one may be bound from a
container that is in the component itself.

* `rootId_eq_none_iff` — which components have no root.
* `exists_cycle_of_rootless` — they have a cycle.
* `rootless_iff_bound` — without a cycle of rows and designations, binds close one.
* `containers_close_cycles` — a container that is drawn inside of what it is bound into.
-/

namespace Ontogram

open ElementGraph OperationGraph

variable {drawing : Drawing} {settings : Settings} {ids : IdSource}

/-- A way of two kinds of steps has steps of the first kind only, or one of the second kind. -/
theorem transGen_or_cases {α : Type} {r s : α → α → Prop} {a b : α}
    (h : Relation.TransGen (fun x y => r x y ∨ s x y) a b) :
    Relation.TransGen r a b ∨ ∃ u v, Relation.ReflTransGen (fun x y => r x y ∨ s x y) a u ∧
      s u v ∧ Relation.ReflTransGen (fun x y => r x y ∨ s x y) v b := by
  induction h with
  | single hstep =>
    rcases hstep with hr | hs
    · exact Or.inl (.single hr)
    · exact Or.inr ⟨_, _, .refl, hs, .refl⟩
  | tail hway hstep ih =>
    rcases hstep with hr | hs
    · refine ih.imp (fun h => h.tail hr) ?_
      rintro ⟨u, v, hau, hs, hvb⟩
      exact ⟨u, v, hau, hs, hvb.tail (Or.inl hr)⟩
    · exact Or.inr ⟨_, _, hway.to_reflTransGen, hs, .refl⟩

namespace ExecutionPlan

variable {o : OperationGraph} {c : ComponentPlan}

/-- **A component has no root if an edge leads to each of its elements.** -/
theorem rootId_eq_none_iff (h : (plannedGraph o).WellFormed) (hc : c ∈ (ofGraph o).components) :
    c.rootId = none ↔ ∀ x ∈ c.nodes, ∃ a, (plannedGraph o).Edge a x := by
  obtain ⟨-, hacc⟩ := accountsFor_of_mem h hc
  cases hacc with
  | rootless noRoot incoming _ _ => exact iff_of_true noRoot incoming
  | rooted root _ _ hasRoot root_mem head _ _ _ _ _ =>
    rw [hasRoot]
    exact iff_of_false nofun fun hin => head (hin root root_mem)

theorem nodes_ne_nil (hc : c ∈ (ofGraph o).components) : c.nodes ≠ [] := by
  obtain ⟨members, hm, secondary, rfl⟩ := mem_components_ofGraph hc
  rw [nodes_componentPlan]
  exact component_ne_nil hm

/-- **A component without root has a cycle.** -/
theorem exists_cycle_of_rootless (h : (plannedGraph o).WellFormed)
    (hc : c ∈ (ofGraph o).components) (hroot : c.rootId = none) :
    ∃ x ∈ c.nodes, Relation.TransGen (plannedGraph o).Edge x x := by
  have hclass := (accountsFor_of_mem h hc).1
  have hin := (rootId_eq_none_iff h hc).1 hroot
  obtain ⟨x, hx⟩ := List.exists_mem_of_ne_nil _ (nodes_ne_nil hc)
  let pairs := (plannedGraph o).edges.map OperationEdge.ends
  have hheads : Hierarchy.Heads pairs = (plannedGraph o).Edge := paired_ends
  have hrootless : Hierarchy.Rootless pairs x := by
    refine ⟨?_, fun y hxy htop => ?_⟩
    · obtain ⟨a, ha⟩ := hin x hx
      exact Hierarchy.mem_mentions.2 ⟨a, Or.inr (hheads ▸ ha)⟩
    · rw [Hierarchy.Joined, hheads] at hxy
      obtain ⟨a, ha⟩ := hin y ((hclass x hx y).2 hxy)
      exact htop a (hheads ▸ ha)
  obtain ⟨y, hxy, hcycle⟩ := hrootless.exists_cycle
  rw [Hierarchy.Joined, hheads] at hxy
  rw [Hierarchy.Above, hheads] at hcycle
  exact ⟨y, (hclass x hx y).2 hxy, hcycle⟩

/--
**When rows and designations without cycles leave a component without root.**

It has no root if and only if each of its elements that neither a row nor a designation leads to is
bound from a container that is no isolate. Then one of these elements leads to a container that it
is bound from.
-/
theorem rootless_iff_bound (drawing : Drawing) (settings : Settings) (ids : IdSource)
    (hacyclic : ∀ x, ¬Relation.TransGen (drawing.Draws settings) x x) :
    let o := (build drawing settings ids).1
    let Binds := Binds drawing o.componentRoots
    ∀ c ∈ (ofDrawing drawing settings ids).components,
      (c.rootId = none ↔ ∀ x ∈ c.nodes, (∀ a, ¬drawing.Draws settings a x) →
        ∃ a, Binds a x ∧ a ∉ o.isolates) ∧
      (c.rootId = none → ∃ r ∈ c.nodes, ∃ a ∈ c.nodes, Binds a r ∧ (plannedGraph o).Leads r a) := by
  intro o Binds c hc
  have h : (plannedGraph o).WellFormed := wellFormed_plannedGraph drawing settings ids
  have hedge : ∀ a b, (plannedGraph o).Edge a b ↔
      drawing.Draws settings a b ∨ Binds a b ∧ a ∉ o.isolates := fun _ _ => edge_plannedGraph_iff
  refine ⟨?_, fun hroot => ?_⟩
  · rw [rootId_eq_none_iff h hc]
    refine forall₂_congr fun x _ => ?_
    simp only [hedge, exists_or, ← not_exists]
    exact or_iff_not_imp_left
  · obtain ⟨x, hx, hcycle⟩ := exists_cycle_of_rootless h hc hroot
    have hclass := (accountsFor_of_mem h hc).1
    have hsplit : (plannedGraph o).Edge =
        fun a b => drawing.Draws settings a b ∨ Binds a b ∧ a ∉ o.isolates :=
      funext₂ fun a b => propext (hedge a b)
    rw [hsplit] at hcycle
    -- The cycle has a bind from a container to a root, and the rest of it leads back.
    obtain ⟨a, r, hxa, ⟨hbind, -⟩, hrx⟩ := (transGen_or_cases hcycle).resolve_left (hacyclic x)
    rw [← hsplit] at hxa hrx
    have hleads : (plannedGraph o).Leads r a := hrx.trans hxa
    have ha : a ∈ c.nodes := (hclass x hx a).2 (Leads.connected hxa)
    exact ⟨r, (hclass a ha r).2 hleads.connected.symm, a, ha, hbind, hleads⟩

/-- A row that binds a container, a container inside of another one, and what the parent of the row
is drawn inside of. -/
def assembly (areaIds : List String) : Drawing :=
  ((Drawing.empty.relate "a" "A[T|t_]" "mds:bind" "b" "~B[T|t_]").designate "o" "~O[T|t_]"
    [⟨"i", "~I[T|t_]"⟩]).inside "a" areaIds

theorem draws_assembly {areaIds : List String} {x y : String}
    (h : (assembly areaIds).Draws .standard x y) : x ∈ ["a", "o"] ∧ y ∈ ["b", "i"] := by
  rcases h with ⟨r, hr, -, rfl, rfl⟩ | ⟨d, hd, rfl, q, hq, -, rfl⟩
  · rw [List.mem_singleton.1 hr]
    decide
  · rw [List.mem_singleton.1 hd] at hq ⊢
    rw [List.mem_singleton.1 hq]
    decide

/-- What is drawn leads from `a` and `o` to others, however it is placed. -/
theorem acyclic_assembly (areaIds : List String) (x : String) :
    ¬Relation.TransGen ((assembly areaIds).Draws .standard) x x := by
  intro h
  obtain ⟨y, hxy, -⟩ := Relation.TransGen.head'_iff.1 h
  obtain ⟨z, -, hzx⟩ := Relation.TransGen.tail'_iff.1 h
  have hfrom := (draws_assembly hxy).1
  have hto := (draws_assembly hzx).2
  simp only [List.mem_cons, List.not_mem_nil, or_false] at hfrom hto
  rcases hfrom with rfl | rfl <;> revert hto <;> decide

/-- In the inner container, `a` is bound from that one and `o` from none, so there is a root. -/
theorem rootless_iff_bound_inner :
    (∀ x, ¬Relation.TransGen ((assembly ["i"]).Draws .standard) x x) ∧
      ∀ c ∈ (ofDrawing (assembly ["i"]) .standard (.ofHeader "gen")).components,
        "o" ∈ c.nodes ∧ c.rootId ≠ none := by
  refine ⟨acyclic_assembly _, fun c hc => ?_⟩
  have ho : "o" ∈ c.nodes := by
    revert c
    decide +kernel
  refine ⟨ho, fun hroot => ?_⟩
  obtain ⟨hiff, -⟩ := rootless_iff_bound _ .standard (.ofHeader "gen") (acyclic_assembly ["i"]) c hc
  have htop : ∀ a, ¬(assembly ["i"]).Draws .standard a "o" := fun a h =>
    absurd (draws_assembly h).2 (by decide)
  obtain ⟨a, ⟨-, ⟨m, hm, hin, -⟩, -, -⟩, -⟩ := hiff.1 hroot "o" ho htop
  rw [List.mem_singleton.1 hm] at hin
  exact absurd hin (by decide)

/-- Says that every component has a root if rows and designations form no cycle. -/
def KeepsRoots (drawing : Drawing) (settings : Settings) (ids : IdSource) : Prop :=
  (∀ x, ¬Relation.TransGen (drawing.Draws settings) x x) →
    ∀ c ∈ (ofDrawing drawing settings ids).components, c.rootId.isSome = true

/-- **A container closes a cycle** if it binds what it is bound into. -/
theorem containers_close_cycles :
    ¬KeepsRoots (assembly ["b"]) .standard (.ofHeader "gen") := by
  intro h
  have hall := h (acyclic_assembly ["b"])
  revert hall
  decide +kernel

end ExecutionPlan

end Ontogram
