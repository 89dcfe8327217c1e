import Ontogram.TermGraph.Valid

/-!
# What holds of every run of changes

`Arena.Reachable` is every arena that changes lead to from the empty one, in any order. A union
takes any two of them, so also an arena and its own copy.

* `Reachable.valid` — every one of them is valid, by the step lemmas of `Arena.Valid`.
* `reachable_in_step` — what that says about the index, the links and the tables.
-/

namespace Ontogram.Arena

/-- The arenas that changes lead to from the empty one. -/
inductive Reachable : Arena → Prop where
  | empty : Reachable empty
  | ensure {g : Arena} (label : String) : Reachable g → Reachable (g.ensure label)
  | relate {g : Arena} (a : Arc) : Reachable g → Reachable (g.relate a)
  | ofRows {g : Arena} (rows : List Row) : Arena.ofRows rows = .ok g → Reachable g
  | relabel {g h : Arena} (old new : String) :
      Reachable g → g.relabel? old new = some h → Reachable h
  | remove {g h : Arena} (label : String) : Reachable g → g.remove? label = some h → Reachable h
  | removeWhere {g : Arena} (p : Term → Bool) : Reachable g → Reachable (g.removeWhere p).1
  | retain {g : Arena} (keep : List String) : Reachable g → Reachable (g.retain keep)
  | compose {g h : Arena} : Reachable g → Reachable h → Reachable (g.compose h)

theorem Reachable.valid {g : Arena} (hg : g.Reachable) : g.Valid := by
  induction hg with
  | empty => exact valid_empty
  | ensure label _ ih => exact ih.ensure label
  | relate a _ ih => exact ih.relate a
  | ofRows rows hr => exact valid_ofRows hr
  | relabel old new _ hr ih => exact ih.relabel? hr
  | remove label _ hr ih => exact ih.remove? hr
  | removeWhere p _ ih => exact ih.removeWhere p
  | retain keep _ ih => exact ih.retain keep
  | compose _ _ ih _ => exact ih.compose _

/--
**Index, terms and links stay in step.**

The index gives a slot for a label exactly if the slot is live with that label, both ends of a live
link are live, and no two live links join the same slots. So no label is listed twice, and the table
has no pair twice.
-/
theorem reachable_in_step {g : Arena} (hg : g.Reachable) :
    (∀ label slot, g.index label = some slot ↔
      ∃ t, g.terms.get? slot = some t ∧ t.label = label) ∧
    (∀ i k, g.links.get? i = some k →
      (∃ t, g.terms.get? k.source = some t) ∧ ∃ t, g.terms.get? k.target = some t) ∧
    (∀ i j k l, g.links.get? i = some k → g.links.get? j = some l →
      k.source = l.source → k.target = l.target → i = j) ∧
    g.labels.Nodup ∧ (g.rows.map fun r => (r.parent, r.child)).Nodup :=
  ⟨hg.valid.index, hg.valid.ends, hg.valid.pairs, hg.valid.labels_nodup, hg.valid.pairs_nodup⟩

/-- Three terms in a row, the first and the last of which become one, united with a copy of
itself. -/
theorem reachable_in_step_merged :
    let rows := (empty.relate ⟨"a", "b", ⟨"r", false⟩⟩).relate ⟨"b", "c", ⟨"s", false⟩⟩
    let merged := (rows.relabel? "a" "c").getD empty
    let g := merged.compose merged
    g.Reachable ∧ g.index "a" = none ∧ g.index "c" = some 2 ∧ g.labels = ["b", "c"] ∧
      g.labels.Nodup := by
  intro rows merged g
  have hm : rows.relabel? "a" "c" = some merged := rfl
  have hr : merged.Reachable := ((Reachable.empty.relate _).relate _).relabel _ _ hm
  have hg : g.Reachable := hr.compose hr
  exact ⟨hg, by decide, by decide, by decide, (reachable_in_step hg).2.2.2.1⟩

end Ontogram.Arena
