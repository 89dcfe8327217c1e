import Mathlib.Logic.Relation
import Ontogram.Proofs.TermGraph.Merged
import Ontogram.Proofs.TermGraph.Walks

/-!
# What a term leads to

One term leads to another if there is a way of one or more arcs. A rename takes the ways along: each
related pair stays related under its new labels, also where the rename makes two terms one.

* `mem_children`, `TermGraph.mem_descendants` — a walk steps along related pairs, and so it finds
  what a term leads to.
* `TermGraph.mem_rankAncestors` — a walk back along rank arcs finds the rank terms above a term.
* `Valid.relation?_relabel?` — what a rename does to a related pair.
* `Covers.leads`, `Valid.leads_relabel?` — ways in a larger and in a renamed arena.
-/

namespace Ontogram.Arena

variable {g h : Arena} {a b old new : String}

/-- A way of one or more arcs leads from a term to another. -/
def Leads (g : Arena) : String → String → Prop :=
  Relation.TransGen fun a b => (g.relation? a b).isSome

theorem contains_of_leads (hl : g.Leads a b) : g.contains a = true ∧ g.contains b = true := by
  induction hl with
  | single hab => exact contains_of_relation? hab
  | tail _ hbc ih => exact ⟨ih.1, (contains_of_relation? hbc).2⟩

theorem mem_children (hg : g.Valid) : b ∈ g.children a ↔ (g.relation? a b).isSome := by
  simp only [children, List.mem_map, List.mem_filter, beq_iff_eq]
  constructor
  · rintro ⟨arc, ⟨harc, rfl⟩, rfl⟩
    rw [hg.relation?_eq_some.2 harc]
    rfl
  · intro hr
    obtain ⟨r, hr⟩ := Option.isSome_iff_exists.1 hr
    exact ⟨⟨a, b, r⟩, ⟨hg.relation?_eq_some.1 hr, rfl⟩, rfl⟩

theorem leads_eq_transGen_children (hg : g.Valid) :
    g.Leads = Relation.TransGen fun a b => b ∈ g.children a := by
  unfold Leads
  congr 1
  funext a b
  exact propext (mem_children hg).symm

theorem Covers.leads (hc : h.Covers g) (hl : g.Leads a b) : h.Leads a b :=
  Relation.TransGen.mono hc a b hl

/-! ## Ranks -/

/-- A rank arc leads from a term to another. -/
def RankArc (g : Arena) (a b : String) : Prop :=
  ∃ r, g.relation? a b = some r ∧ r.isRank = true

/-- A way of one or more rank arcs leads from a term to another. -/
def RankLeads (g : Arena) : String → String → Prop :=
  Relation.TransGen g.RankArc

theorem mem_rankParents (hg : g.Valid) : a ∈ g.rankParents b ↔ g.RankArc a b := by
  simp only [rankParents, List.mem_map, List.mem_filter, Bool.and_eq_true, beq_iff_eq, RankArc,
    hg.relation?_eq_some]
  constructor
  · rintro ⟨arc, ⟨harc, rfl, hrank⟩, rfl⟩
    exact ⟨arc.relation, harc, hrank⟩
  · rintro ⟨r, harc, hrank⟩
    exact ⟨⟨a, b, r⟩, ⟨harc, rfl, hrank⟩, rfl⟩

theorem RankArc.contains (h : g.RankArc a b) : g.contains a = true ∧ g.contains b = true := by
  obtain ⟨r, hr, -⟩ := h
  exact contains_of_relation? (by rw [hr]; rfl)

theorem RankLeads.contains (h : g.RankLeads a b) : g.contains a = true ∧ g.contains b = true := by
  induction h with
  | single hab => exact hab.contains
  | tail _ hbc ih => exact ⟨ih.1, hbc.contains.2⟩

/-! ## Renames -/

/-- **A related pair stays related under its new labels.** -/
theorem Valid.relation?_relabel? (hg : g.Valid) (hr : g.relabel? old new = some h)
    (hab : (g.relation? a b).isSome) :
    (h.relation? (if old = a then new else a) (if old = b then new else b)).isSome := by
  by_cases hne : old = new
  · subst hne
    obtain rfl := eq_of_relabel?_self hr
    have hsame : ∀ label, (if old = label then old else label) = label := fun _ =>
      ite_eq_right_iff.2 id
    rwa [hsame, hsame]
  · exact (hg.isQuotient_relabel? hne hr).relation?_isSome hab

/-- What a rename leaves related was related, under labels that have become these. -/
theorem Valid.exists_relation?_of_relabel? (hg : g.Valid) (hr : g.relabel? old new = some h)
    {x y : String} (hxy : (h.relation? x y).isSome) :
    ∃ a b, (if old = a then new else a) = x ∧ (if old = b then new else b) = y ∧
      (g.relation? a b).isSome := by
  by_cases hne : old = new
  · subst hne
    obtain rfl := eq_of_relabel?_self hr
    exact ⟨x, y, ite_eq_right_iff.2 id, ite_eq_right_iff.2 id, hxy⟩
  · exact (hg.isQuotient_relabel? hne hr).exists_relation? hxy

/-- **A rename takes ways along.** -/
theorem Valid.leads_relabel? (hg : g.Valid) (hr : g.relabel? old new = some h)
    (hl : g.Leads a b) : h.Leads (if old = a then new else a) (if old = b then new else b) :=
  Relation.TransGen.lift (fun label => if old = label then new else label)
    (fun _ _ hab => hg.relation?_relabel? hr hab) a b hl

end Ontogram.Arena

namespace Ontogram.TermGraph

variable {g : TermGraph} {label x : String}

/-- **The terms below a term are those it leads to**, the term itself excluded. -/
theorem mem_descendants : x ∈ g.descendants label ↔ x ≠ label ∧ g.Leads label x := by
  unfold Arena.descendants
  split
  · next hl =>
    rw [mem_drop_reached (fun _ _ => contains_of_mem_children) hl,
      Arena.leads_eq_transGen_children g.valid]
  · next hl => exact iff_of_false List.not_mem_nil fun h => hl (Arena.contains_of_leads h.2).1

/-- **The rank terms above a term are those that rank arcs lead to it from**, the term itself
excluded. -/
theorem mem_rankAncestors : x ∈ g.rankAncestors label ↔ x ≠ label ∧ g.RankLeads x label := by
  have hnext : ∀ a b, b ∈ g.rankParents a → g.contains b = true := fun a b hb =>
    ((Arena.mem_rankParents g.valid).1 hb).contains.1
  have hstep : (fun a b => b ∈ g.rankParents a) = Function.swap g.RankArc := by
    funext a b
    exact propext (Arena.mem_rankParents g.valid)
  unfold Arena.rankAncestors
  split
  · next hl =>
    rw [mem_drop_reached hnext hl, hstep, Relation.transGen_swap]
    rfl
  · next hl =>
    exact iff_of_false List.not_mem_nil fun h => hl (Arena.RankLeads.contains h.2).2

end Ontogram.TermGraph
