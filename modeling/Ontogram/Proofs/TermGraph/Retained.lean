import Ontogram.Proofs.TermGraph.Tables
import Ontogram.Proofs.TermGraph.Union

/-!
# What later rows leave of a graph

Relating terms and uniting graphs keep every related pair. They keep its relation as well, unless
the pair is among those that were added.

* `Retains` — an arena has the pairs of another, and their relations unless some rows have the pair.
* `Valid.retains_relate`, `Valid.retains_compose` — what the two keep of an arena.
* `Valid.retains_added` — a union keeps all of the arena that was added.
* `Retains.exists_row` — the same for the rows of the tables.
-/

namespace Ontogram.Arena

variable {g h k other : Arena} {later : List Row}

/-- The related pairs of an arena are related in another, in the same way unless one of some rows
has the pair. -/
def Retains (h g : Arena) (later : List Row) : Prop :=
  ∀ parent child r, g.relation? parent child = some r → ∃ r', h.relation? parent child = some r' ∧
    (r' = r ∨ ∃ row ∈ later, row.parent = parent ∧ row.child = child)

theorem Retains.refl (g : Arena) : g.Retains g [] :=
  fun _ _ r hr => ⟨r, hr, Or.inl rfl⟩

theorem Retains.trans {last : List Row} (hk : k.Retains h last) (hh : h.Retains g later) :
    k.Retains g (later ++ last) := by
  intro parent child r hr
  obtain ⟨r₁, hr₁, hkept₁⟩ := hh parent child r hr
  obtain ⟨r₂, hr₂, hkept₂⟩ := hk parent child r₁ hr₁
  refine ⟨r₂, hr₂, ?_⟩
  rcases hkept₂ with rfl | ⟨row, hrow, hpair⟩
  · refine hkept₁.imp_right ?_
    rintro ⟨row, hrow, hpair⟩
    exact ⟨row, List.mem_append_left last hrow, hpair⟩
  · exact Or.inr ⟨row, List.mem_append_right later hrow, hpair⟩

/-- **Relating two terms keeps all pairs, and the relations of all others.** -/
theorem Valid.retains_relate (hg : g.Valid) (a : Arc) : (g.relate a).Retains g [a.toRow] := by
  intro parent child r hr
  rw [hg.relation?_relate]
  split
  · next hends =>
    obtain ⟨hparent, hchild⟩ := Prod.mk.inj hends
    exact ⟨a.relation, rfl, Or.inr ⟨_, List.mem_singleton_self _, hparent, hchild⟩⟩
  · exact ⟨r, hr, Or.inl rfl⟩

/-- **A union keeps all pairs, and the relations of those that the other arena does not relate.** -/
theorem Valid.retains_compose (hg : g.Valid) (ho : other.Valid) :
    (g.compose other).Retains g other.rows := by
  intro parent child r hr
  rw [hg.relation?_compose ho, hr]
  cases hother : other.relation? parent child with
  | none => exact ⟨r, rfl, Or.inl rfl⟩
  | some r' =>
    have hrow := ho.exists_row (Option.isSome_of_eq_some hother)
    exact ⟨r', rfl, Or.inr hrow⟩

/-- **A union keeps the arena that was added**, relations included. -/
theorem Valid.retains_added (hg : g.Valid) (ho : other.Valid) :
    (g.compose other).Retains other [] := by
  intro parent child r hr
  rw [hg.relation?_compose ho, hr]
  exact ⟨r, rfl, Or.inl rfl⟩

/-- Every row of a table is in the table of an arena that retains it, or the pair of the row is and
one of the later rows has it as well. -/
theorem Retains.exists_row (hh : h.Retains g later) (hg : g.Valid) (hv : h.Valid) {row : Row}
    (hrow : row ∈ g.rows) :
    ∃ row' ∈ h.rows, row'.parent = row.parent ∧ row'.child = row.child ∧
      (row' = row ∨ ∃ l ∈ later, l.parent = row.parent ∧ l.child = row.child) := by
  obtain ⟨a, ha, rfl⟩ := List.mem_map.1 hrow
  obtain ⟨r, hr, hkept⟩ := hh a.parent a.child a.relation (hg.relation?_eq_some.2 ha)
  refine ⟨Arc.toRow ⟨a.parent, a.child, r⟩, ?_, rfl, rfl, hkept.imp_left ?_⟩
  · exact List.mem_map_of_mem (hv.relation?_eq_some.1 hr)
  · rintro rfl
    rfl

end Ontogram.Arena
