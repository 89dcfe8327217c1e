import Ontogram.Proofs.Search
import Ontogram.TermGraph.Basic

/-!
# What walks go through

A walk goes through terms of the graph and through none twice.

* `mem_drop_reached` — a walk finds what its steps lead to, but for its start.
* `descendants_nodup`, `contains_of_mem_descendants`
* `shortestPath?_nodup`, `contains_of_mem_shortestPath?`
-/

namespace Ontogram.TermGraph

variable {g : TermGraph}

/-- Steps to terms of the graph stay in the graph. -/
theorem contains_of_reaches {next : String → List String}
    (hnext : ∀ a b, b ∈ next a → g.contains b = true) {label x : String}
    (hl : g.contains label = true) (hr : Search.Reaches next label x) : g.contains x = true := by
  rcases Relation.ReflTransGen.cases_tail hr with rfl | ⟨y, -, hy⟩
  · exact hl
  · exact hnext y x hy

/-- **A walk through the graph finds what its steps lead to**, the start excluded. -/
theorem mem_drop_reached {next : String → List String}
    (hnext : ∀ a b, b ∈ next a → g.contains b = true) {label x : String}
    (hl : g.contains label = true) :
    x ∈ (Search.reached next g.size label).drop 1 ↔
      x ≠ label ∧ Relation.TransGen (fun a b => b ∈ next a) label x := by
  have hmem : x ∈ Search.reached next g.size label ↔ Search.Reaches next label x :=
    Search.mem_reached (fun _ hy => g.valid.mem_labels.2 (contains_of_reaches hnext hl hy))
      (Nat.le_of_eq g.length_labels)
  have hnd := Search.reached_nodup next g.size label
  obtain ⟨rest, hrest⟩ := Search.exists_reached_eq_cons next g.size label
  rw [hrest, Search.Reaches, Relation.reflTransGen_iff_eq_or_transGen, List.mem_cons] at hmem
  rw [hrest, List.nodup_cons] at hnd
  rw [hrest, List.drop_one, List.tail_cons]
  constructor
  · intro hx
    have hne : x ≠ label := by
      rintro rfl
      exact hnd.1 hx
    exact ⟨hne, (hmem.1 (Or.inr hx)).resolve_left hne⟩
  · rintro ⟨hne, hx⟩
    exact (hmem.2 (Or.inr hx)).resolve_left hne

/-- Arcs lead to terms of the graph. -/
theorem contains_of_mem_children {a b : String} (hb : b ∈ g.children a) : g.contains b = true := by
  obtain ⟨arc, harc, rfl⟩ := List.mem_map.1 hb
  exact (g.valid.contains_ends (List.mem_filter.1 harc).1).2

theorem descendants_nodup (g : TermGraph) (label : String) : (g.descendants label).Nodup := by
  unfold Arena.descendants
  split
  · exact (Search.reached_nodup _ _ _).sublist (List.drop_sublist _ _)
  · exact List.nodup_nil

theorem contains_of_mem_descendants {label x : String} (hx : x ∈ g.descendants label) :
    g.contains x = true := by
  unfold Arena.descendants at hx
  split at hx
  · next hl =>
    exact contains_of_reaches (fun _ _ => contains_of_mem_children) hl
      (Search.reaches_of_mem_reached (List.mem_of_mem_drop hx))
  · exact absurd hx List.not_mem_nil

/-- Only what is in the graph has terms below it. -/
theorem contains_of_descendants {label x : String} (hx : x ∈ g.descendants label) :
    g.contains label = true := by
  unfold Arena.descendants at hx
  split at hx
  · assumption
  · exact absurd hx List.not_mem_nil

/-- A term is not below itself. -/
theorem ne_of_mem_descendants {label x : String} (hx : x ∈ g.descendants label) : x ≠ label := by
  unfold Arena.descendants at hx
  split at hx
  · have hn := Search.reached_nodup g.children g.size label
    obtain ⟨rest, hrest⟩ := Search.exists_reached_eq_cons g.children g.size label
    rw [hrest] at hn hx
    rintro rfl
    exact (List.nodup_cons.1 hn).1 hx
  · exact absurd hx List.not_mem_nil

/-- What a path goes through was found by the search from its source. -/
theorem shortestPath?_sublist {source target : String} {path : List String}
    (hp : g.shortestPath? source target = some path) :
    g.contains source = true ∧ path.Sublist (Search.reached g.children g.size source) := by
  unfold Arena.shortestPath? at hp
  split at hp
  · next hc =>
    rw [Bool.and_eq_true] at hc
    exact ⟨hc.1, Search.trail?_sublist hp⟩
  · cases hp

theorem shortestPath?_nodup {source target : String} {path : List String}
    (hp : g.shortestPath? source target = some path) : path.Nodup :=
  (Search.reached_nodup _ _ _).sublist (shortestPath?_sublist hp).2

theorem contains_of_mem_shortestPath? {source target x : String} {path : List String}
    (hp : g.shortestPath? source target = some path) (hx : x ∈ path) : g.contains x = true := by
  obtain ⟨hs, hsub⟩ := shortestPath?_sublist hp
  exact contains_of_reaches (fun _ _ => contains_of_mem_children) hs
    (Search.reaches_of_mem_reached (hsub.subset hx))

end Ontogram.TermGraph
