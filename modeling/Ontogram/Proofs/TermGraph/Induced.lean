import Ontogram.Proofs.TermGraph.Labels

/-!
# What a removal leaves, slot by slot

A removal goes through the labels that it takes out, one at a time, and vacates with each term the
links at it. What is left is what the arena had of the other terms: they stay in their slots as they
are, and so does every link between two of them. That is the same whatever the order, and whether a
link goes with the term it comes from, with the one it leads to, or is a loop.

* `IsInduced` — an arena is what another one has of some of its terms.
* `isInduced_removeCounting` — one term goes.
* `isInduced_foldl_removeCounting`, `count_foldl_removeCounting` — all of them go, and are counted.
* `TermGraph.removeWhere_isInduced` — what a removal leaves and how many it counts.
-/

namespace Ontogram.Arena

variable {g part rest : Arena} {keep more : Term → Prop}

/-- Says that an arena is what another one has of the terms to keep: these terms in their slots, the
links between them in theirs, and nothing else. -/
structure IsInduced (keep : Term → Prop) (g part : Arena) : Prop where
  terms : ∀ slot t, part.terms.get? slot = some t ↔ g.terms.get? slot = some t ∧ keep t
  links : ∀ i k, part.links.get? i = some k ↔
    g.links.get? i = some k ∧ Holds part.terms k.source ∧ Holds part.terms k.target
  index : ∀ label slot, part.index label = some slot ↔
    g.index label = some slot ∧ Holds part.terms slot

/-- What is kept twice is kept. -/
theorem IsInduced.trans (h : IsInduced keep g part) (h' : IsInduced more part rest) :
    IsInduced (fun t => keep t ∧ more t) g rest := by
  have hholds : ∀ {slot}, Holds rest.terms slot → Holds part.terms slot := by
    rintro slot ⟨t, ht⟩
    exact ⟨t, ((h'.terms slot t).1 ht).1⟩
  constructor
  · intro slot t
    rw [h'.terms, h.terms, and_assoc]
  · intro i k
    rw [h'.links, h.links, and_assoc]
    exact and_congr_right fun _ => and_iff_right_of_imp fun hk => ⟨hholds hk.1, hholds hk.2⟩
  · intro label slot
    rw [h'.index, h.index, and_assoc]
    exact and_congr_right fun _ => and_iff_right_of_imp hholds

/-- Only the terms that there are matter. -/
theorem IsInduced.congr (h : IsInduced keep g part)
    (hk : ∀ slot t, g.terms.get? slot = some t → (keep t ↔ more t)) : IsInduced more g part where
  terms := fun slot t => (h.terms slot t).trans (and_congr_right fun ht => hk slot t ht)
  links := h.links
  index := h.index

/-- Where nothing goes, all terms are kept. -/
theorem Valid.isInduced_self (hg : g.Valid) : IsInduced (fun _ => True) g g where
  terms := fun _ _ => (and_iff_left trivial).symm
  links := fun i k => (and_iff_left_of_imp (hg.ends i k)).symm
  index := fun _ _ => (and_iff_left_of_imp hg.index.holds).symm

/-! ## One term -/

/-- A term has the label of a slot exactly if it is in that slot. -/
theorem Valid.label_eq_iff (hg : g.Valid) {label : String} {slot i : Nat} {t : Term}
    (hl : g.index label = some slot) (ht : g.terms.get? i = some t) :
    t.label = label ↔ i = slot := by
  constructor
  · rintro rfl
    have hi := (hg.index t.label i).2 ⟨t, ht, rfl⟩
    exact Option.some.inj (hi.symm.trans hl)
  · rintro rfl
    obtain ⟨u, hu, rfl⟩ := (hg.index label i).1 hl
    rw [ht] at hu
    rw [Option.some.inj hu]

/-- The slots that still hold a term once one was vacated. -/
theorem holds_vacate {slot i : Nat} :
    Holds (g.vacate slot).terms i ↔ Holds g.terms i ∧ i ≠ slot := by
  unfold Holds vacate
  simp only [Slots.get?_erase]
  by_cases hi : i = slot <;> simp [hi]

/-- **One term goes.** -/
theorem Valid.isInduced_forget_vacate (hg : g.Valid) {label : String} {slot : Nat}
    (hl : g.index label = some slot) :
    IsInduced (fun t => t.label ≠ label) g ((g.forget label).vacate slot) := by
  have hholds : ∀ {i}, Holds ((g.forget label).vacate slot).terms i ↔
      Holds g.terms i ∧ i ≠ slot := holds_vacate (g := g.forget label)
  constructor
  · intro i t
    have hget : ((g.forget label).vacate slot).terms.get? i = some t ↔
        g.terms.get? i = some t ∧ i ≠ slot := by
      refine (Slots.get?_eraseWhere_eq_some (s := g.terms)).trans (and_congr_right fun _ => ?_)
      rw [beq_eq_false_iff_ne]
    rw [hget]
    exact and_congr_right fun ht => not_congr (hg.label_eq_iff hl ht).symm
  · intro i k
    rw [hholds, hholds]
    simp only [vacate, forget, Slots.get?_eraseWhere_eq_some, beq_eq_false_iff_ne, and_assoc]
    refine and_congr_right fun hk => ?_
    obtain ⟨hs, ht⟩ := hg.ends i k hk
    rw [and_iff_right hs, and_iff_right ht]
  · intro l i
    rw [hholds]
    show g.index.erase label l = some i ↔ _
    rw [Lookup.erase_apply, Option.ite_none_left_eq_some, and_comm]
    refine and_congr_right fun hi => ?_
    obtain ⟨t, ht, rfl⟩ := (hg.index l i).1 hi
    rw [and_iff_right ⟨t, ht⟩]
    exact not_congr (hg.label_eq_iff hl ht)

theorem isInduced_removeCounting {s : Arena × Nat} (hs : s.1.Valid) (label : String) :
    IsInduced (fun t => t.label ≠ label) s.1 (removeCounting s label).1 := by
  unfold removeCounting remove?
  cases hl : s.1.index label with
  | none =>
    refine hs.isInduced_self.congr fun slot t ht => iff_of_true trivial ?_
    rintro rfl
    rw [(hs.index t.label slot).2 ⟨t, ht, rfl⟩] at hl
    cases hl
  | some slot => exact hs.isInduced_forget_vacate hl

/-! ## All of them -/

/-- **What is left once all labels were gone through.** -/
theorem isInduced_foldl_removeCounting (labels : List String) {s : Arena × Nat} (hs : s.1.Valid) :
    IsInduced (fun t => t.label ∉ labels) s.1 (labels.foldl removeCounting s).1 := by
  induction labels generalizing s with
  | nil => exact hs.isInduced_self.congr fun _ _ _ => by simp
  | cons label labels ih =>
    have hrest := ih (hs.removeCounting label)
    refine ((isInduced_removeCounting hs label).trans hrest).congr fun _ t _ => ?_
    rw [List.mem_cons, not_or]

/-- **Every label is counted**, if each is that of a term and none comes twice. -/
theorem count_foldl_removeCounting {labels : List String} (hnd : labels.Nodup) {s : Arena × Nat}
    (hc : ∀ label ∈ labels, s.1.contains label = true) :
    (labels.foldl removeCounting s).2 = s.2 + labels.length := by
  induction labels generalizing s with
  | nil => rfl
  | cons label labels ih =>
    rw [List.nodup_cons] at hnd
    rw [List.forall_mem_cons] at hc
    -- The labels that come later are still there, since each is another one.
    have hlater : ∀ l ∈ labels, (removeCounting s label).1.contains l = true := by
      intro l hl
      refine (contains_removeCounting s label l).2 ⟨?_, hc.2 l hl⟩
      rintro rfl
      exact hnd.1 hl
    have hone : (removeCounting s label).2 = s.2 + 1 := by
      obtain ⟨slot, hslot⟩ := contains_eq_true_iff.1 hc.1
      rw [removeCounting, remove?, hslot]
      rfl
    rw [List.foldl_cons, ih hnd.2 hlater, hone, List.length_cons]
    omega

/-- A term is taken out by its label exactly if it satisfies the predicate. -/
theorem Valid.mem_doomed (hg : g.Valid) (p : Term → Bool) {slot : Nat} {t : Term}
    (ht : g.terms.get? slot = some t) :
    t.label ∈ (g.termList.filter p).map Term.label ↔ p t = true := by
  simp only [List.mem_map, List.mem_filter]
  constructor
  · rintro ⟨u, ⟨hu, hp⟩, hl⟩
    obtain ⟨i, hi⟩ := Slots.mem_toList.1 hu
    obtain rfl := (hg.label_eq_iff ((hg.index t.label slot).2 ⟨t, ht, rfl⟩) hi).1 hl
    rw [ht] at hi
    rwa [Option.some.inj hi]
  · exact fun hp => ⟨t, ⟨Slots.mem_toList.2 ⟨slot, ht⟩, hp⟩, rfl⟩

/-- **What a removal leaves.** -/
theorem Valid.isInduced_removeWhere (hg : g.Valid) (p : Term → Bool) :
    IsInduced (fun t => p t = false) g (g.removeWhere p).1 := by
  refine (isInduced_foldl_removeCounting _ (s := (g, 0)) hg).congr fun slot t ht => ?_
  rw [hg.mem_doomed p ht, Bool.not_eq_true]

/-- **How many terms a removal counts.** -/
theorem Valid.count_removeWhere (hg : g.Valid) (p : Term → Bool) :
    (g.removeWhere p).2 = g.termList.countP p := by
  have hsub : ((g.termList.filter p).map Term.label).Sublist g.labels :=
    List.filter_sublist.map Term.label
  have hcount := count_foldl_removeCounting (hg.labels_nodup.sublist hsub) (s := (g, 0))
    fun label hl => hg.mem_labels.1 (hsub.subset hl)
  rw [Arena.removeWhere, hcount, List.length_map, List.countP_eq_length_filter, Nat.zero_add]

end Ontogram.Arena

namespace Ontogram.TermGraph

/--
**A removal leaves the induced part and counts what goes.**

What is left are exactly the terms that do not satisfy the predicate, each in its slot and as it
was, and exactly the links between two of them, each in its slot and as it was. The count is the
number of terms that satisfy the predicate. To keep the terms of some labels is to remove those of
all others.
-/
theorem removeWhere_isInduced (g : TermGraph) (p : Term → Bool) :
    Arena.IsInduced (fun t => p t = false) g.toArena (g.removeWhere p).1.toArena ∧
      (g.removeWhere p).2 = g.termList.countP p ∧
      ∀ keep : List String, g.retain keep = (g.removeWhere fun t => t.label ∉ keep).1 ∧
        Arena.IsInduced (fun t => t.label ∈ keep) g.toArena (g.retain keep).toArena := by
  refine ⟨g.valid.isInduced_removeWhere p, g.valid.count_removeWhere p, fun keep => ⟨?_, ?_⟩⟩
  · have hout : (fun t : Term => decide (t.label ∉ keep)) = fun t => !keep.contains t.label := by
      funext t
      simp
    rw [hout]
    rfl
  · refine (g.valid.isInduced_removeWhere fun t => !keep.contains t.label).congr fun _ t _ => ?_
    simp

/-- Two terms go that are related to each other, one of them also to itself. What stays keeps its
slots, so the gap shows in the slot of the link. -/
example :
    let g := (((TermGraph.empty.relate ⟨"*a", "*b", ⟨"r", false⟩⟩).relate
      ⟨"*b", "*b", ⟨"r", false⟩⟩).relate ⟨"*b", "c", ⟨"r", false⟩⟩).relate ⟨"c", "d", ⟨"r", true⟩⟩
    let rest := (g.removeWhere fun t => Label.isPlaceholder t.label).1
    (g.removeWhere fun t => Label.isPlaceholder t.label).2 = 2 ∧
      rest.terms.entries.map (fun e => (e.1, e.2.label)) = [(2, "c"), (3, "d")] ∧
      rest.links.entries = [(3, ⟨2, 3, ⟨"r", true⟩⟩)] := by
  decide +kernel

end Ontogram.TermGraph
