import Ontogram.Proofs.Search.Shortest
import Ontogram.Proofs.TermGraph.Leads

/-!
# Walks find what is nearest first

A walk is a search along the arcs of a graph. So a path between two terms is as short as any, and
what a walk lists is in the order of the distance from its start, which is how many arcs a shortest
path takes.

* `ListsReached` — what a walk lists, said by the relation that it steps along.
* `shortestPath?_isShortestPath` — when there is a path, and which one is given.
* `walks_list_reached` — what the walks down the arcs and up the rank arcs list.
-/

namespace Ontogram

/-- An arc leads from a term to another. -/
def Arena.Related (g : Arena) (a b : String) : Prop :=
  (g.relation? a b).isSome

/-- Says that a list has what a relation leads to from a start, the start excluded, each once and
none after another that is farther. -/
structure ListsReached (r : String → String → Prop) (start : String) (found : List String) :
    Prop where
  mem_iff : ∀ x, x ∈ found ↔ x ≠ start ∧ Relation.TransGen r start x
  nodup : found.Nodup
  exists_shortest : ∀ x ∈ found, ∃ path, IsShortestPath r start x path
  nearest : found.Pairwise fun x y => ∀ p q, IsShortestPath r start x p →
    IsShortestPath r start y q → p.length ≤ q.length

namespace TermGraph

variable {g : TermGraph} {label source target : String}

/-! ## Walks -/

/-- The steps of a walk are those of the relation that it goes along. -/
theorem mem_next_eq {next : String → List String} {r : String → String → Prop}
    (hr : ∀ a b, b ∈ next a ↔ r a b) : (fun a b => b ∈ next a) = r := by
  funext a b
  exact propext (hr a b)

/-- **A walk lists what its steps lead to.** -/
theorem listsReached_drop {next : String → List String} {r : String → String → Prop}
    (hr : ∀ a b, b ∈ next a ↔ r a b)
    (hends : ∀ {a b}, r a b → g.contains a = true ∧ g.contains b = true) (label : String) :
    ListsReached r label
      (if g.contains label then (Search.reached next g.size label).drop 1 else []) := by
  have hstep := mem_next_eq hr
  split
  · next hl =>
    have hmem : ∀ x, x ∈ (Search.reached next g.size label).drop 1 ↔
        x ≠ label ∧ Relation.TransGen r label x := fun x => by
      rw [← hstep]
      exact mem_drop_reached (fun a b hb => (hends ((hr a b).1 hb)).2) hl
    refine ⟨hmem, (Search.reached_nodup _ _ _).sublist (List.drop_sublist _ _), ?_, ?_⟩
    · intro x hx
      rw [← hstep]
      exact Search.exists_isShortestPath
        (Search.reaches_of_mem_reached (List.mem_of_mem_drop hx))
    · rw [← hstep]
      exact (Search.reached_pairwise_length_le next g.size label).sublist (List.drop_sublist _ _)
  · next hl =>
    -- A label that is no term has no arc to start with.
    refine ⟨fun x => iff_of_false List.not_mem_nil fun h => ?_, List.nodup_nil, nofun,
      List.Pairwise.nil⟩
    obtain ⟨y, hy, -⟩ := Relation.TransGen.head'_iff.1 h.2
    exact hl (hends hy).1

/--
**The walks list what is reached, what is nearer first.**

The terms below a label are those that arcs lead to from it, and the rank terms above it are those
that rank arcs lead to it from, in both cases without the label itself. Each is listed once, and
none after one that more arcs have to be walked to. A label that is no term has none of either.
-/
theorem walks_list_reached (g : TermGraph) (label : String) :
    ListsReached g.Related label (g.descendants label) ∧
      ListsReached (Function.swap g.RankArc) label (g.rankAncestors label) ∧
      (g.contains label = false → g.descendants label = [] ∧ g.rankAncestors label = []) := by
  refine ⟨?_, ?_, fun hl => ?_⟩
  · exact listsReached_drop (fun _ _ => Arena.mem_children g.valid) Arena.contains_of_relation?
      label
  · exact listsReached_drop (fun _ _ => Arena.mem_rankParents g.valid) (fun h => h.contains.symm)
      label
  · simp [Arena.descendants, Arena.rankAncestors, hl]

/-- A motor of two rank terms, one of which has another above it, on a circle of other arcs: what
is nearer is listed first, and the walk down does not come back to the motor. -/
theorem walks_list_reached_shared :
    let g := ((((((TermGraph.empty.relate ⟨"Thing", "Device", ⟨"type", true⟩⟩).relate
      ⟨"Device", "motor_", ⟨"type", true⟩⟩).relate ⟨"Part", "motor_", ⟨"type", true⟩⟩).relate
      ⟨"motor_", "speed_", ⟨"has", false⟩⟩).relate ⟨"speed_", "unit_", ⟨"in", false⟩⟩).relate
      ⟨"unit_", "motor_", ⟨"of", false⟩⟩)
    g.rankAncestors "motor_" = ["Device", "Part", "Thing"] ∧
      (∃ path, IsShortestPath (Function.swap g.RankArc) "motor_" "Thing" path) ∧
      g.descendants "motor_" = ["speed_", "unit_"] ∧ g.Leads "motor_" "unit_" ∧
      g.contains "pump_" = false ∧ g.descendants "pump_" = [] := by
  intro g
  have hup : g.rankAncestors "motor_" = ["Device", "Part", "Thing"] := by decide +kernel
  have hdown : g.descendants "motor_" = ["speed_", "unit_"] := by decide +kernel
  have habsent : g.contains "pump_" = false := by decide +kernel
  obtain ⟨hbelow, habove, -⟩ := walks_list_reached g "motor_"
  have hunit := (hbelow.mem_iff "unit_").1 (by rw [hdown]; simp)
  exact ⟨hup, habove.exists_shortest "Thing" (by rw [hup]; simp), hdown, hunit.2, habsent,
    ((walks_list_reached g "pump_").2.2 habsent).1⟩

/-! ## Paths -/

theorem children_eq (g : TermGraph) : (fun a b => b ∈ g.children a) = g.Related :=
  mem_next_eq fun _ _ => Arena.mem_children g.valid

/-- What the terms of a graph lead to is among its terms. -/
theorem mem_labels_of_reaches (hs : g.contains source = true) {x : String}
    (hx : Search.Reaches g.children source x) : x ∈ g.labels :=
  g.valid.mem_labels.2 (contains_of_reaches (fun _ _ => contains_of_mem_children) hs hx)

/-- There is a path exactly if the source leads to the target. -/
theorem isSome_shortestPath? : (g.shortestPath? source target).isSome ↔
    g.contains source = true ∧ g.contains target = true ∧
      Relation.ReflTransGen g.Related source target := by
  unfold Arena.shortestPath?
  rw [← and_assoc, ← Bool.and_eq_true]
  split
  · next hc =>
    have hs : g.contains source = true := by
      rw [Bool.and_eq_true] at hc
      exact hc.1
    rw [Search.isSome_trail?, Search.mem_reached (fun _ hx => mem_labels_of_reaches hs hx)
      (Nat.le_of_eq g.length_labels), Search.Reaches, g.children_eq]
    exact (and_iff_right hc).symm
  · next hc => exact iff_of_false Bool.false_ne_true fun h => hc h.1

/-- A path that is given is a shortest one. -/
theorem isShortestPath_of_shortestPath? {path : List String}
    (hp : g.shortestPath? source target = some path) :
    IsShortestPath g.Related source target path := by
  unfold Arena.shortestPath? at hp
  split at hp
  · rw [← g.children_eq]
    exact Search.trail?_isShortestPath hp
  · cases hp

/--
**A path is found if there is one, and it is as short as any.**

A path is given exactly if both ends are terms and the source leads to the target, by no arc at all
if they are the same. It starts and ends there, takes an arc at each step, repeats no term, and no
path between the two is shorter. The search for it ends without a bound on its steps, and so does
the way back along the terms that each term was first reached from.
-/
theorem shortestPath?_isShortestPath (g : TermGraph) (source target : String) :
    ((g.shortestPath? source target).isSome ↔ g.contains source = true ∧
      g.contains target = true ∧ Relation.ReflTransGen g.Related source target) ∧
    (∀ path, g.shortestPath? source target = some path →
      IsShortestPath g.Related source target path ∧ path.Nodup) ∧
    (g.contains source = true → g.contains target = true → ∀ path?,
      Search.Seeks g.children target [⟨source, none⟩] [⟨source, none⟩] path? ↔
        path? = g.shortestPath? source target) := by
  refine ⟨isSome_shortestPath?, fun path hp =>
    ⟨isShortestPath_of_shortestPath? hp, shortestPath?_nodup hp⟩, fun hs ht path? => ?_⟩
  rw [Arena.shortestPath?, if_pos (by rw [hs, ht]; rfl)]
  exact Search.seeks_iff (fun _ hx => mem_labels_of_reaches hs hx) (Nat.le_of_eq g.length_labels)

/-- Two ways around a circle and out of it: the one of two arcs is given and not that of three, and
no way leads back. -/
theorem shortestPath?_isShortestPath_detour :
    let g := ((((((TermGraph.empty.relate ⟨"a", "b", ⟨"r", false⟩⟩).relate
      ⟨"b", "c", ⟨"r", false⟩⟩).relate ⟨"c", "a", ⟨"r", false⟩⟩).relate
      ⟨"c", "e", ⟨"r", false⟩⟩).relate ⟨"a", "d", ⟨"r", true⟩⟩).relate ⟨"d", "e", ⟨"r", true⟩⟩)
    g.shortestPath? "a" "e" = some ["a", "d", "e"] ∧
      IsShortestPath g.Related "a" "e" ["a", "d", "e"] ∧
      g.contains "e" = true ∧ g.contains "a" = true ∧
      Search.Seeks g.children "a" [⟨"e", none⟩] [⟨"e", none⟩] none := by
  intro g
  have hpath : g.shortestPath? "a" "e" = some ["a", "d", "e"] := by decide +kernel
  have hnone : none = g.shortestPath? "e" "a" := by decide +kernel
  have he : g.contains "e" = true := by decide +kernel
  have ha : g.contains "a" = true := by decide +kernel
  exact ⟨hpath, ((shortestPath?_isShortestPath g "a" "e").2.1 _ hpath).1, he, ha,
    ((shortestPath?_isShortestPath g "e" "a").2.2 he ha none).2 hnone⟩

end TermGraph

end Ontogram
