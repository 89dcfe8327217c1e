import Ontogram.TermGraph.Basic

/-!
# Adding takes nothing away

Relating terms and uniting graphs keep the slot of every label and every link, if not its relation.
So a pair that is related stays related.

* `grows_relate`, `grows_compose` — what the two do to an arena.
* `Covers` — every related pair of an arena is related in another.
* `Valid.exists_row` — a related pair has a row in the table.
-/

namespace Ontogram.Arena

variable {g h k : Arena}

/-- Labels keep their slots, and slots that are joined stay joined. -/
structure Grows (g h : Arena) : Prop where
  index : ∀ label slot, g.index label = some slot → h.index label = some slot
  links : ∀ s t, (g.link? s t).isSome → (h.link? s t).isSome

theorem Grows.refl (g : Arena) : Grows g g :=
  ⟨fun _ _ hs => hs, fun _ _ hk => hk⟩

theorem Grows.trans (h₁ : Grows g h) (h₂ : Grows h k) : Grows g k :=
  ⟨fun label slot hs => h₂.index label slot (h₁.index label slot hs),
    fun s t hk => h₂.links s t (h₁.links s t hk)⟩

theorem Grows.contains (hg : Grows g h) {label : String} (hc : g.contains label = true) :
    h.contains label = true := by
  obtain ⟨slot, hs⟩ := Option.isSome_iff_exists.1 hc
  exact Option.isSome_iff_exists.2 ⟨slot, hg.index label slot hs⟩

/-! ## Changes -/

theorem grows_addTerm {t : Term} (ht : g.index t.label = none) : Grows g (g.addTerm t) where
  index := by
    intro label slot hs
    have hne : label ≠ t.label := by
      rintro rfl
      rw [ht] at hs
      cases hs
    exact (if_neg hne).trans hs
  links := fun _ _ hk => hk

theorem grows_ensureSlot (g : Arena) (label : String) : Grows g (g.ensureSlot label).1 := by
  unfold ensureSlot
  split
  · exact Grows.refl g
  · next hn => exact grows_addTerm hn

theorem grows_putTerm (g : Arena) (t : Term) : Grows g (g.putTerm t).1 := by
  unfold putTerm
  split
  · exact ⟨fun _ _ hs => hs, fun _ _ hk => hk⟩
  · next hn => exact grows_addTerm hn

/-- Putting a link joins its own slots, and the others as before. -/
theorem link?_putLink_isSome (l : Link) {s t : Nat} :
    ((g.putLink l).link? s t).isSome ↔
      (g.link? s t).isSome ∨ (l.source = s ∧ l.target = t) := by
  unfold putLink
  split
  · next hl =>
    obtain ⟨i₀, k₀, hk₀, hs₀, ht₀⟩ := link?_isSome.1 hl
    simp only [link?_isSome, Slots.get?_map, Option.map_eq_some_iff, Link.joins, Bool.and_eq_true,
      beq_iff_eq]
    grind
  · simp only [link?_isSome, Slots.get?_insert]
    have hnext := Slots.get?_next g.links
    grind

/-- A run of links joins their slots, and the others as before. -/
theorem link?_foldl_putLink_isSome (ks : List Link) {s t : Nat} :
    ((ks.foldl putLink g).link? s t).isSome ↔
      (g.link? s t).isSome ∨ ∃ k ∈ ks, k.source = s ∧ k.target = t := by
  induction ks generalizing g with
  | nil => simp
  | cons k ks ih => simp only [List.foldl_cons, ih, link?_putLink_isSome, List.mem_cons,
      exists_eq_or_imp, or_assoc]

theorem grows_putLink (g : Arena) (l : Link) : Grows g (g.putLink l) where
  index := by
    intro label slot hs
    rwa [putLink_index]
  links := fun _ _ hk => (link?_putLink_isSome l).2 (Or.inl hk)

/-- **Relating terms takes nothing away.** -/
theorem grows_relate (g : Arena) (a : Arc) : Grows g (g.relate a) :=
  ((grows_ensureSlot g a.parent).trans (grows_ensureSlot _ a.child)).trans (grows_putLink _ _)

theorem grows_foldl_takeTerm (es : List (Nat × Term)) (s : Arena × Lookup Nat Nat) :
    Grows s.1 (es.foldl takeTerm s).1 := by
  induction es generalizing s with
  | nil => exact Grows.refl s.1
  | cons e es ih => exact (grows_putTerm s.1 e.2).trans (ih (takeTerm s e))

theorem grows_foldl_takeLink (taken : Lookup Nat Nat) (ks : List Link) (g : Arena) :
    Grows g (ks.foldl (takeLink taken) g) := by
  induction ks generalizing g with
  | nil => exact Grows.refl g
  | cons l ks ih =>
    have hstep : Grows g (takeLink taken g l) := by
      unfold takeLink
      split
      · exact grows_putLink g _
      · exact Grows.refl g
    exact hstep.trans (ih _)

/-- **Uniting takes nothing away.** -/
theorem grows_compose (g other : Arena) : Grows g (g.compose other) :=
  (grows_foldl_takeTerm other.terms.entries (g, .empty)).trans (grows_foldl_takeLink _ _ _)

/-! ## Related pairs -/

theorem relation?_isSome {parent child : String} :
    (g.relation? parent child).isSome ↔ ∃ s t, g.index parent = some s ∧
      g.index child = some t ∧ (g.link? s t).isSome := by
  unfold relation?
  split
  · next s t hs ht => simp [hs, ht]
  · next hn =>
    constructor
    · nofun
    · rintro ⟨s, t, hs, ht, -⟩
      exact absurd ht (hn s t hs)

theorem Grows.relation?_isSome (hg : Grows g h) {parent child : String}
    (hr : (g.relation? parent child).isSome) : (h.relation? parent child).isSome := by
  obtain ⟨s, t, hs, ht, hk⟩ := Arena.relation?_isSome.1 hr
  exact Arena.relation?_isSome.2 ⟨s, t, hg.index _ s hs, hg.index _ t ht, hg.links s t hk⟩

/-- The pairs that are related in an arena are related in another. -/
def Covers (h g : Arena) : Prop :=
  ∀ parent child, (g.relation? parent child).isSome → (h.relation? parent child).isSome

theorem index_ensureSlot (g : Arena) (label : String) :
    (g.ensureSlot label).1.index label = some (g.ensureSlot label).2 := by
  unfold ensureSlot
  split
  · next hs => exact hs
  · exact if_pos rfl

/-- Two terms are related once they were. -/
theorem relation?_relate_isSome (g : Arena) (a : Arc) :
    ((g.relate a).relation? a.parent a.child).isSome := by
  rw [relation?_isSome, relate]
  refine ⟨(g.ensureSlot a.parent).2, ((g.ensureSlot a.parent).1.ensureSlot a.child).2, ?_, ?_, ?_⟩
  · rw [putLink_index]
    exact (grows_ensureSlot _ a.child).index _ _ (index_ensureSlot g a.parent)
  · rw [putLink_index]
    exact index_ensureSlot _ a.child
  · exact (link?_putLink_isSome _).2 (Or.inr ⟨rfl, rfl⟩)

/-- **A related pair has a row in the table.** -/
theorem Valid.exists_row (hg : g.Valid) {parent child : String}
    (hr : (g.relation? parent child).isSome) :
    ∃ row ∈ g.rows, row.parent = parent ∧ row.child = child := by
  obtain ⟨s, t, hs, ht, hk⟩ := relation?_isSome.1 hr
  obtain ⟨i, l, hl, rfl, rfl⟩ := link?_isSome.1 hk
  refine ⟨(g.arcOf l).toRow, List.mem_map_of_mem (mem_arcList.2 ⟨i, l, hl, rfl⟩), ?_, ?_⟩
  · exact hg.labelAt_of_index hs
  · exact hg.labelAt_of_index ht

end Ontogram.Arena
