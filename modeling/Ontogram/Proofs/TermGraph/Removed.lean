import Ontogram.Proofs.TermGraph.Leads

/-!
# Ways around what is removed

A removal takes terms out together with their arcs, and leaves every arc between other terms. So
what a term leads to afterwards is what it led to before on ways that keep clear of the removed
terms.

* `Valid.isPart_removeWhere`, `Valid.isPart_retain` — which terms and relations are left.
* `Valid.leads_removeWhere` — which ways are left.
-/

namespace Ontogram.Arena

variable {g : Arena} {q : String → Bool} {a b c : String}

/-- A way of one or more arcs leads from a term to another, and no term on it after the first one
has the property. -/
def LeadsClearOf (q : String → Bool) (g : Arena) : String → String → Prop :=
  Relation.TransGen fun a b => (g.relation? a b).isSome ∧ q b = false

theorem LeadsClearOf.leads (h : g.LeadsClearOf q a b) : g.Leads a b :=
  Relation.TransGen.mono (fun _ _ => And.left) a b h

/-! ## Removing one term -/

theorem index_removeCounting (s : Arena × Nat) (label l : String) :
    (removeCounting s label).1.index l = if l = label then none else s.1.index l := by
  unfold removeCounting remove?
  cases hl : s.1.index label with
  | none =>
    show s.1.index l = _
    split
    · next he => rw [he, hl]
    · rfl
  | some slot => exact Lookup.erase_apply _ _ _

/-- **Removing a term leaves the others.** -/
theorem term?_removeCounting {s : Arena × Nat} (hs : s.1.Valid) (label l : String) :
    (removeCounting s label).1.term? l = if l = label then none else s.1.term? l := by
  unfold term?
  rw [index_removeCounting]
  split
  · rfl
  · next hne =>
    refine Option.bind_congr fun i hi => ?_
    unfold removeCounting remove?
    cases hl : s.1.index label with
    | none => rfl
    | some slot => exact (Slots.get?_erase _ _ _).trans (if_neg (hs.slot_ne hne hi hl))

/-- **Removing a term leaves the relations of the others.** -/
theorem relation?_removeCounting {s : Arena × Nat} (hs : s.1.Valid) (label : String) :
    (removeCounting s label).1.relation? a b =
      if a = label ∨ b = label then none else s.1.relation? a b := by
  rw [relation?_eq_bind, relation?_eq_bind, index_removeCounting, index_removeCounting]
  by_cases ha : a = label
  · simp [ha]
  · by_cases hb : b = label
    · simp [hb]
    · rw [if_neg ha, if_neg hb, if_neg (not_or.2 ⟨ha, hb⟩)]
      refine Option.bind_congr fun i hi => Option.bind_congr fun j hj => ?_
      unfold removeCounting remove?
      cases hl : s.1.index label with
      | none => rfl
      | some slot =>
        refine (linked?_vacate (g := s.1.forget label) hs.pairs slot).trans (if_neg ?_)
        exact not_or.2 ⟨hs.slot_ne ha hi hl, hs.slot_ne hb hj hl⟩

/-! ## Removing what has a property -/

theorem term?_foldl_removeCounting {s : Arena × Nat} (hs : s.1.Valid) (labels : List String)
    (l : String) :
    (labels.foldl removeCounting s).1.term? l = if l ∈ labels then none else s.1.term? l := by
  induction labels generalizing s with
  | nil => rfl
  | cons label labels ih =>
    rw [List.foldl_cons, ih (hs.removeCounting label), term?_removeCounting hs]
    grind

theorem relation?_foldl_removeCounting {s : Arena × Nat} (hs : s.1.Valid) (labels : List String) :
    (labels.foldl removeCounting s).1.relation? a b =
      if a ∈ labels ∨ b ∈ labels then none else s.1.relation? a b := by
  induction labels generalizing s with
  | nil => simp
  | cons label labels ih =>
    rw [List.foldl_cons, ih (hs.removeCounting label), relation?_removeCounting hs]
    grind

/-- Says that an arena is what another has of some labels: their terms, and the relations between
them. -/
structure IsPart (keep : String → Prop) (g part : Arena) : Prop where
  term : ∀ label t, part.term? label = some t ↔ keep label ∧ g.term? label = some t
  relation : ∀ a b r, part.relation? a b = some r ↔ keep a ∧ keep b ∧ g.relation? a b = some r

/-- **A removal by label leaves the part that it does not take out.** -/
theorem Valid.isPart_removeWhere (hg : g.Valid) (q : String → Bool) :
    IsPart (fun label => q label = false) g (g.removeWhere fun t => q t.label).1 where
  term := by
    intro label t
    unfold Arena.removeWhere
    rw [term?_foldl_removeCounting hg, Option.ite_none_left_eq_some, hg.mem_removedLabels]
    refine and_congr_left fun ht => ?_
    have hc : g.contains label = true := by rw [← hg.isSome_term?, ht]; rfl
    rw [and_iff_right hc, Bool.not_eq_true]
  relation := by
    intro a b r
    unfold Arena.removeWhere
    rw [relation?_foldl_removeCounting hg, Option.ite_none_left_eq_some, ← and_assoc,
      hg.mem_removedLabels, hg.mem_removedLabels, not_or]
    refine and_congr_left fun hr => ?_
    obtain ⟨ha, hb⟩ := contains_of_relation? (Option.isSome_of_eq_some hr)
    rw [and_iff_right ha, and_iff_right hb, Bool.not_eq_true, Bool.not_eq_true]

/-- **What is retained is the part of its labels.** -/
theorem Valid.isPart_retain (hg : g.Valid) (keep : List String) :
    IsPart (fun label => label ∈ keep) g (g.retain keep) := by
  have hkeep : (fun label => label ∈ keep) = fun label => (!keep.contains label) = false := by
    funext label
    simp
  rw [hkeep]
  exact hg.isPart_removeWhere fun label => !keep.contains label

/-- A removal by label leaves related what it does not take out. -/
theorem Valid.relation?_removeWhere (hg : g.Valid) (q : String → Bool) :
    ((g.removeWhere fun t => q t.label).1.relation? a b).isSome ↔
      q a = false ∧ q b = false ∧ (g.relation? a b).isSome := by
  simp only [Option.isSome_iff_exists, (hg.isPart_removeWhere q).relation, exists_and_left]

/-- **What is left of the ways**: those that keep clear of what is removed. -/
theorem Valid.leads_removeWhere (hg : g.Valid) (q : String → Bool) :
    (g.removeWhere fun t => q t.label).1.Leads a b ↔ q a = false ∧ g.LeadsClearOf q a b := by
  constructor
  · intro h
    induction h with
    | single hab =>
      obtain ⟨ha, hb, hab⟩ := (hg.relation?_removeWhere q).1 hab
      exact ⟨ha, .single ⟨hab, hb⟩⟩
    | tail _ hbc ih =>
      obtain ⟨-, hc, hbc⟩ := (hg.relation?_removeWhere q).1 hbc
      exact ⟨ih.1, ih.2.tail ⟨hbc, hc⟩⟩
  · rintro ⟨ha, h⟩
    suffices q b = false ∧ (g.removeWhere fun t => q t.label).1.Leads a b from this.2
    induction h with
    | single hab => exact ⟨hab.2, .single ((hg.relation?_removeWhere q).2 ⟨ha, hab.2, hab.1⟩)⟩
    | tail _ hbc ih =>
      exact ⟨hbc.2, ih.2.tail ((hg.relation?_removeWhere q).2 ⟨ih.1, hbc.2, hbc.1⟩)⟩

end Ontogram.Arena

namespace Ontogram.TermGraph

theorem leads_removeWhere (g : TermGraph) (q : String → Bool) {a b : String} :
    (g.removeWhere fun t => q t.label).1.Leads a b ↔ q a = false ∧ g.LeadsClearOf q a b :=
  g.valid.leads_removeWhere q

end Ontogram.TermGraph
