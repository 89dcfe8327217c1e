import Mathlib.Data.Option.Basic
import Ontogram.TermGraph.Basic

/-!
# The labels after a change

Which labels are terms once a change was made. The index alone decides that, so the statements on
arenas need no invariant.

* `Arena.contains_relabel?` — a rename takes one label out and puts another in.
* `Arena.contains_relate` — relating two terms adds what is missing of them.
* `Arena.Valid.contains_removeWhere` — a removal by label takes out the labels it is asked to.
* `TermGraph.isSome_relabel?` — a rename fails only if the old label is no term.
-/

namespace Ontogram

namespace Arena

variable {g h : Arena}

theorem foldl_putLink_index (ks : List Link) (g : Arena) :
    (ks.foldl putLink g).index = g.index := by
  induction ks generalizing g with
  | nil => rfl
  | cons k ks ih => rw [List.foldl_cons, ih, putLink_index]

theorem foldl_putLink_terms (ks : List Link) (g : Arena) :
    (ks.foldl putLink g).terms = g.terms := by
  induction ks generalizing g with
  | nil => rfl
  | cons k ks ih => rw [List.foldl_cons, ih, putLink_terms]

theorem index_moveTerm (g : Arena) (old new : Nat) (label : String) :
    (g.moveTerm old new label).index = g.index := by
  unfold moveTerm
  split <;> rfl

theorem index_mergeInto (g : Arena) (source target : Nat) (old new : String) :
    (g.mergeInto source target old new).index = g.index.erase old := by
  rw [mergeInto, foldl_putLink_index, index_moveTerm]
  rfl

theorem contains_eq_true_iff {label : String} :
    g.contains label = true ↔ ∃ slot, g.index label = some slot := by
  unfold contains
  exact Option.isSome_iff_exists

/-- A rename takes the old label out and puts the new one in. -/
theorem contains_relabel? {old new : String} (hr : g.relabel? old new = some h) (label : String) :
    h.contains label = true ↔ label = new ∨ label ≠ old ∧ g.contains label = true := by
  rcases relabel?_cases hr with ⟨rfl, hc, rfl⟩ | ⟨hne, source, ho, ⟨hn, rfl⟩ | ⟨target, hn, rfl⟩⟩
  · by_cases hl : label = old
    · simp [hl, hc]
    · simp [hl]
  · show ((g.index.erase old).insert new source label).isSome = true ↔ _
    rw [Lookup.insert_apply, Lookup.erase_apply]
    by_cases hl : label = new
    · simp [hl]
    · by_cases hl' : label = old
      · simp [hl']
      · simp [hl, hl', contains]
  · rw [contains, index_mergeInto, Lookup.erase_apply]
    by_cases hl' : label = old
    · simp [hl', hne]
    · by_cases hl : label = new
      · simp [hl, hne.symm, hn]
      · simp [hl, hl', contains]

theorem isSome_relabel? (g : Arena) (old new : String) :
    (g.relabel? old new).isSome = g.contains old := by
  unfold relabel? contains
  split
  · cases g.index old <;> rfl
  · cases g.index old with
    | none => rfl
    | some source => cases g.index new <;> rfl

/-- A rename to the same label changes nothing. -/
theorem eq_of_relabel?_self {label : String} (hr : g.relabel? label label = some h) : h = g := by
  rcases relabel?_cases hr with ⟨-, -, he⟩ | ⟨hne, -⟩
  · exact he
  · exact absurd rfl hne

theorem contains_addTerm (g : Arena) (t : Term) (label : String) :
    (g.addTerm t).contains label = true ↔ label = t.label ∨ g.contains label = true := by
  show (g.index.insert t.label g.terms.next label).isSome = true ↔ _
  rw [Lookup.insert_apply]
  by_cases hl : label = t.label
  · simp [hl]
  · simp [hl, contains]

theorem contains_ensure (g : Arena) (l label : String) :
    (g.ensure l).contains label = true ↔ label = l ∨ g.contains label = true := by
  unfold ensure ensureSlot
  split
  · next slot hs =>
    constructor
    · exact Or.inr
    · rintro (rfl | hc)
      · exact contains_eq_true_iff.2 ⟨slot, hs⟩
      · exact hc
  · exact contains_addTerm g _ label

theorem contains_relate (g : Arena) (a : Arc) (label : String) :
    (g.relate a).contains label = true ↔
      label = a.parent ∨ label = a.child ∨ g.contains label = true := by
  have hp : (g.relate a).contains label = ((g.ensure a.parent).ensure a.child).contains label := by
    unfold contains relate
    rw [putLink_index]
    rfl
  rw [hp, contains_ensure, contains_ensure, or_left_comm]

/-! ## Removing -/

theorem contains_removeCounting (s : Arena × Nat) (l label : String) :
    (removeCounting s l).1.contains label = true ↔ label ≠ l ∧ s.1.contains label = true := by
  unfold removeCounting remove?
  cases hs : s.1.index l with
  | none =>
    show s.1.contains label = true ↔ _
    refine ⟨fun hc => ⟨?_, hc⟩, And.right⟩
    rintro rfl
    rw [contains, hs] at hc
    cases hc
  | some slot =>
    show (s.1.index.erase l label).isSome = true ↔ _
    rw [Lookup.erase_apply]
    by_cases hl : label = l
    · simp [hl]
    · simp [hl, contains]

theorem contains_foldl_removeCounting (labels : List String) (s : Arena × Nat) (label : String) :
    (labels.foldl removeCounting s).1.contains label = true ↔
      label ∉ labels ∧ s.1.contains label = true := by
  induction labels generalizing s with
  | nil => simp
  | cons l labels ih =>
    rw [List.foldl_cons, ih, contains_removeCounting, List.mem_cons, not_or, and_assoc,
      and_left_comm]

/-- The labels that a removal by label takes out. -/
theorem Valid.mem_removedLabels (hg : g.Valid) (q : String → Bool) {label : String} :
    label ∈ (g.termList.filter fun t => q t.label).map Term.label ↔
      g.contains label = true ∧ q label = true := by
  rw [← hg.mem_labels, labels]
  simp only [List.mem_map, List.mem_filter]
  constructor
  · rintro ⟨t, ⟨ht, hq⟩, rfl⟩
    exact ⟨⟨t, ht, rfl⟩, hq⟩
  · rintro ⟨⟨t, ht, rfl⟩, hq⟩
    exact ⟨t, ⟨ht, hq⟩, rfl⟩

/-- **A removal by label takes out the labels it is asked to.** -/
theorem Valid.contains_removeWhere (hg : g.Valid) (q : String → Bool) (label : String) :
    (g.removeWhere fun t => q t.label).1.contains label = true ↔
      q label = false ∧ g.contains label = true := by
  unfold Arena.removeWhere
  rw [contains_foldl_removeCounting, hg.mem_removedLabels]
  refine and_congr_left fun hc => ?_
  rw [and_iff_right hc, Bool.not_eq_true]

end Arena

namespace TermGraph

variable {g h : TermGraph}

theorem toArena_inj (he : g.toArena = h.toArena) : g = h :=
  TermGraph.ext (congrArg Arena.terms he) (congrArg Arena.links he) (congrArg Arena.index he)

theorem relabel?_eq_some {old new : String} :
    g.relabel? old new = some h ↔ g.toArena.relabel? old new = some h.toArena := by
  unfold relabel?
  rw [Option.pmap_eq_some_iff]
  constructor
  · rintro ⟨a, _, ha, rfl⟩
    exact ha
  · intro hr
    exact ⟨h.toArena, _, hr, rfl⟩

/-- A rename fails only if the old label is no term. -/
theorem isSome_relabel? (g : TermGraph) (old new : String) :
    (g.relabel? old new).isSome = g.contains old := by
  unfold relabel?
  rw [Option.isSome_pmap, Arena.isSome_relabel?]

theorem exists_relabel? {old : String} (hc : g.contains old = true) (new : String) :
    ∃ h, g.relabel? old new = some h := by
  rw [← Option.isSome_iff_exists, isSome_relabel?, hc]

theorem mem_variableLabels {label : String} :
    label ∈ g.variableLabels ↔ g.contains label = true ∧ Label.isVariable label = true := by
  rw [← g.valid.mem_labels]
  exact List.mem_filter

end TermGraph

end Ontogram
