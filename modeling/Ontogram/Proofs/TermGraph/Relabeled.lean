import Mathlib.Data.Set.Function
import Ontogram.Proofs.TermGraph.Leads

/-!
# Arenas under new labels

An arena that is another one under new labels has the same terms and links in the same slots, and
the same slots are vacant; only the labels differ. Renames whose new labels are not taken lead to
such an arena, one after the other.

* `Valid.relabeled` — a rename to a label that is not taken.
* `Relabeled.index` — the index has each slot under its new label.
* `Relabeled.injOn` — no two labels become one.
* `Relabeled.leads_iff` — a term leads to what it led to.
-/

namespace Ontogram.Arena

variable {g h k : Arena} {f f' : String → String} {a b label old new : String}

/-- Says that an arena is another one whose labels were changed by a map. -/
structure Relabeled (f : String → String) (g h : Arena) : Prop where
  terms : h.terms = g.terms.map fun _ t => { t with label := f t.label }
  links : h.links = g.links

theorem Relabeled.refl (g : Arena) : Relabeled (fun l => l) g g :=
  ⟨g.terms.map_id.symm, rfl⟩

theorem Relabeled.trans (h₁ : Relabeled f g h) (h₂ : Relabeled f' h k) :
    Relabeled (fun l => f' (f l)) g k :=
  ⟨by rw [h₂.terms, h₁.terms, Slots.map_map], by rw [h₂.links, h₁.links]⟩

/-- A rename to a label that is not taken changes this one label. -/
theorem Valid.relabeled (hg : g.Valid) (hr : g.relabel? old new = some h)
    (hn : g.contains new = false) : Relabeled (fun l => if old = l then new else l) g h := by
  rcases relabel?_cases hr with ⟨rfl, hc, rfl⟩ | ⟨-, source, ho, ⟨-, rfl⟩ | ⟨target, ht, rfl⟩⟩
  · rw [hc] at hn
    cases hn
  · have hterms : (g.rename source old new).terms =
        g.terms.map fun i t => if i = source then { t with label := new } else t := rfl
    refine ⟨hterms.trans (Slots.map_congr fun i t ht => ?_), rfl⟩
    -- The slot of the old label holds its term and no other.
    have hslot : i = source ↔ old = t.label := by
      constructor
      · rintro rfl
        obtain ⟨u, hu, rfl⟩ := (hg.index old i).1 ho
        rw [ht] at hu
        rw [Option.some.inj hu]
      · rintro rfl
        have hi := (hg.index t.label i).2 ⟨t, ht, rfl⟩
        rw [ho] at hi
        exact (Option.some.inj hi).symm
    by_cases hi : i = source
    · rw [if_pos hi, if_pos (hslot.1 hi)]
    · rw [if_neg hi, if_neg (mt hslot.2 hi)]
  · rw [contains_eq_true_iff.2 ⟨target, ht⟩] at hn
    cases hn

/-! ## Labels -/

theorem Relabeled.get?_eq_some (hr : Relabeled f g h) {slot : Nat} {t : Term} :
    h.terms.get? slot = some t ↔
      ∃ u, g.terms.get? slot = some u ∧ { u with label := f u.label } = t := by
  rw [hr.terms, Slots.get?_map]
  exact Option.map_eq_some_iff

/-- **Each slot has its new label in the index.** -/
theorem Relabeled.index (hr : Relabeled f g h) (hg : g.Valid) (hh : h.Valid) {slot : Nat}
    (hl : g.index label = some slot) : h.index (f label) = some slot := by
  obtain ⟨t, ht, rfl⟩ := (hg.index label slot).1 hl
  exact (hh.index _ slot).2 ⟨_, hr.get?_eq_some.2 ⟨t, ht, rfl⟩, rfl⟩

/-- A slot of the index had an old label. -/
theorem Relabeled.exists_index (hr : Relabeled f g h) (hg : g.Valid) (hh : h.Valid) {slot : Nat}
    (hl : h.index label = some slot) : ∃ l, g.index l = some slot ∧ f l = label := by
  obtain ⟨t, ht, rfl⟩ := (hh.index label slot).1 hl
  obtain ⟨u, hu, rfl⟩ := hr.get?_eq_some.1 ht
  exact ⟨u.label, (hg.index _ slot).2 ⟨u, hu, rfl⟩, rfl⟩

/-- A label had an old one. -/
theorem Relabeled.exists_contains (hr : Relabeled f g h) (hg : g.Valid) (hh : h.Valid)
    (hc : h.contains label = true) : ∃ l, g.contains l = true ∧ f l = label := by
  obtain ⟨slot, hslot⟩ := contains_eq_true_iff.1 hc
  obtain ⟨l, hl, he⟩ := hr.exists_index hg hh hslot
  exact ⟨l, contains_eq_true_iff.2 ⟨slot, hl⟩, he⟩

/-- **No two labels become one.** -/
theorem Relabeled.injOn (hr : Relabeled f g h) (hg : g.Valid) (hh : h.Valid) :
    Set.InjOn f {l | g.contains l = true} := by
  intro a ha b hb he
  obtain ⟨s, hs⟩ := contains_eq_true_iff.1 ha
  obtain ⟨t, ht⟩ := contains_eq_true_iff.1 hb
  have hslot := hr.index hg hh hs
  rw [he, hr.index hg hh ht] at hslot
  rw [← hg.labelAt_of_index hs, ← hg.labelAt_of_index ht, Option.some.inj hslot]

/-! ## Ways -/

theorem Relabeled.relation?_isSome (hr : Relabeled f g h) (hg : g.Valid) (hh : h.Valid)
    (hab : (g.relation? a b).isSome) : (h.relation? (f a) (f b)).isSome := by
  obtain ⟨s, t, hs, ht, hk⟩ := Arena.relation?_isSome.1 hab
  refine Arena.relation?_isSome.2 ⟨s, t, hr.index hg hh hs, hr.index hg hh ht, ?_⟩
  rwa [link?, hr.links]

/-- What is related has old labels that are related. -/
theorem Relabeled.exists_relation? (hr : Relabeled f g h) (hg : g.Valid) (hh : h.Valid)
    {x y : String} (hxy : (h.relation? x y).isSome) :
    ∃ a b, f a = x ∧ f b = y ∧ (g.relation? a b).isSome := by
  obtain ⟨s, t, hs, ht, hk⟩ := Arena.relation?_isSome.1 hxy
  obtain ⟨a, ha, rfl⟩ := hr.exists_index hg hh hs
  obtain ⟨b, hb, rfl⟩ := hr.exists_index hg hh ht
  rw [link?, hr.links] at hk
  exact ⟨a, b, rfl, rfl, Arena.relation?_isSome.2 ⟨s, t, ha, hb, hk⟩⟩

/-- **A term leads to what it led to.** -/
theorem Relabeled.leads_iff (hr : Relabeled f g h) (hg : g.Valid) (hh : h.Valid)
    (ha : g.contains a = true) {y : String} :
    h.Leads (f a) y ↔ ∃ b, f b = y ∧ g.Leads a b := by
  have hf := hr.injOn hg hh
  constructor
  · intro hl
    induction hl with
    | single hay =>
      obtain ⟨a', b, he, hb, hab⟩ := hr.exists_relation? hg hh hay
      obtain rfl := hf (contains_of_relation? hab).1 ha he
      exact ⟨b, hb, Relation.TransGen.single hab⟩
    | tail _ hyz ih =>
      obtain ⟨b, rfl, hb⟩ := ih
      obtain ⟨b', c, he, hc, hbc⟩ := hr.exists_relation? hg hh hyz
      obtain rfl := hf (contains_of_relation? hbc).1 (contains_of_leads hb).2 he
      exact ⟨c, hc, hb.tail hbc⟩
  · rintro ⟨b, rfl, hb⟩
    exact Relation.TransGen.lift f (fun _ _ hxy => hr.relation?_isSome hg hh hxy) a b hb

end Ontogram.Arena
