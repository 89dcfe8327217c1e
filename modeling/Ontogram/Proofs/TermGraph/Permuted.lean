import Mathlib.Logic.Equiv.Basic
import Ontogram.Proofs.TermGraph.Relabeled
import Ontogram.Proofs.TermGraph.Union

/-!
# Arenas under a permutation of the labels

Labels are only compared; a new term alone is told by its label whether it is a rank term. So a
union and a rename of permuted arenas are the permuted union and rename, and so is the relating of
two terms if those that it adds keep their labels. A rename to a label that is not taken is itself a
permutation, which exchanges the two labels; so it commutes with every change that names neither.

* `Arena.Valid.relabel?_eq_permute` — a rename to a label that is not taken.
* `Arena.Valid.permute_eq_self` — a permutation of other labels changes nothing.
* `Arena.compose_permute`, `Arena.relate_permute`, `Arena.relabel?_permute` — changes of a permuted
  arena.
* `TermGraph.permute_comm` — a rename to a label that is not taken and a permutation of others, in
  either order.
-/

namespace Ontogram

namespace Slots

variable {α : Type}

/-- Rewriting one value and rewriting all, in either order. -/
theorem update_map {u u' : α → α} (s : Slots α) (f : α → α) (slot : Nat)
    (h : ∀ a, u' (f a) = f (u a)) :
    (s.map fun _ a => f a).update slot u' = (s.update slot u).map fun _ a => f a := by
  rw [update, update, map_map, map_map]
  refine map_congr fun i a _ => ?_
  split
  · exact h a
  · rfl

theorem erase_map (s : Slots α) (f : α → α) (slot : Nat) :
    (s.map fun _ a => f a).erase slot = (s.erase slot).map fun _ a => f a := by
  refine Slots.ext ?_ ?_ rfl
  · exact List.filter_map
  · show ((List.filter _ (List.map _ _)).map Prod.fst).reverse ++ _ = _
    rw [List.filter_map, List.map_map]
    rfl

end Slots

/-- A term under its permuted label. -/
def Term.permute (π : Equiv.Perm String) (t : Term) : Term :=
  { t with label := π t.label }

namespace Arena

variable {g h : Arena} {π : Equiv.Perm String} {f : String → String} {old new label : String}

/-- The arena whose labels are permuted. -/
def permute (π : Equiv.Perm String) (g : Arena) : Arena where
  terms := g.terms.map fun _ t => t.permute π
  links := g.links
  index := fun label => g.index (π.symm label)

theorem relabeled_permute (π : Equiv.Perm String) (g : Arena) : Relabeled π g (g.permute π) :=
  ⟨rfl, rfl⟩

theorem index_permute (π : Equiv.Perm String) (g : Arena) (label : String) :
    (g.permute π).index (π label) = g.index label :=
  congrArg g.index (π.symm_apply_apply label)

theorem contains_permute (π : Equiv.Perm String) (g : Arena) (label : String) :
    (g.permute π).contains (π label) = g.contains label :=
  congrArg Option.isSome (index_permute π g label)

theorem Valid.permute (hg : g.Valid) (π : Equiv.Perm String) : (g.permute π).Valid where
  index := by
    intro label slot
    show g.index (π.symm label) = some slot ↔ _
    rw [hg.index]
    simp only [(relabeled_permute π g).get?_eq_some]
    constructor
    · rintro ⟨t, ht, hl⟩
      exact ⟨_, ⟨t, ht, rfl⟩, (π.symm_apply_eq.1 hl.symm).symm⟩
    · rintro ⟨_, ⟨t, ht, rfl⟩, hl⟩
      exact ⟨t, ht, (π.symm_apply_eq.2 hl.symm).symm⟩
  ends := hg.ends.mono fun _ hi => hi.map _
  pairs := hg.pairs

/-- Terms have one index. -/
theorem Indexes.unique {terms : Slots Term} {index index' : Lookup String Nat}
    (h : Indexes index terms) (h' : Indexes index' terms) : index = index' :=
  funext fun label => Option.ext fun slot => (h label slot).trans (h' label slot).symm

/-- New labels that a permutation has as well. -/
theorem Relabeled.eq_permute (hr : Relabeled f g h) (hg : g.Valid) (hh : h.Valid)
    (hf : ∀ label, g.contains label = true → f label = π label) : h = g.permute π := by
  have hterms : h.terms = (g.permute π).terms := by
    rw [hr.terms, (relabeled_permute π g).terms]
    refine Slots.map_congr fun i t ht => ?_
    rw [hf t.label (contains_eq_true_iff.2 ⟨i, (hg.index _ i).2 ⟨t, ht, rfl⟩⟩)]
  refine Arena.ext hterms hr.links (hh.index.unique ?_)
  rw [hterms]
  exact (hg.permute π).index

/-- **A rename to a label that is not taken exchanges the two labels.** -/
theorem Valid.relabel?_eq_permute (hg : g.Valid) (ho : g.contains old = true)
    (hn : g.contains new = false) :
    g.relabel? old new = some (g.permute (Equiv.swap old new)) := by
  rw [← isSome_relabel? g old new, Option.isSome_iff_exists] at ho
  obtain ⟨h, hr⟩ := ho
  rw [hr, (hg.relabeled hr hn).eq_permute hg (hg.relabel? hr) fun label hl => ?_]
  split
  · next heq => rw [heq, Equiv.swap_apply_left]
  · next hne =>
    refine (Equiv.swap_apply_of_ne_of_ne (Ne.symm hne) ?_).symm
    rintro rfl
    rw [hl] at hn
    cases hn

/-- A permutation of other labels changes nothing. -/
theorem Valid.permute_eq_self (hg : g.Valid)
    (hπ : ∀ label, g.contains label = true → π label = label) : g.permute π = g :=
  ((Relabeled.refl g).eq_permute hg hg fun label hl => (hπ label hl).symm).symm

/-! ## Terms and links -/

theorem addTerm_permute (π : Equiv.Perm String) (g : Arena) (t : Term) :
    (g.permute π).addTerm (t.permute π) = (g.addTerm t).permute π := by
  refine Arena.ext rfl rfl (funext fun label => ?_)
  show (if label = π t.label then _ else _) = if π.symm label = t.label then _ else _
  simp only [π.symm_apply_eq]
  rfl

theorem putTerm_permute (π : Equiv.Perm String) (g : Arena) (t : Term) :
    (g.permute π).putTerm (t.permute π) =
      ((g.putTerm t).1.permute π, (g.putTerm t).2) := by
  have hindex : (g.permute π).index (t.permute π).label = g.index t.label :=
    index_permute π g t.label
  unfold putTerm
  rw [hindex]
  cases g.index t.label with
  | none => exact Prod.ext (addTerm_permute π g t) rfl
  | some slot =>
    have hterms : (g.permute π).terms.update slot (fun _ => t.permute π) =
        (g.terms.update slot fun _ => t).map fun _ t => t.permute π :=
      g.terms.update_map (Term.permute π) slot fun _ => rfl
    exact Prod.ext (Arena.ext hterms rfl rfl) rfl

/-- A term that is added keeps its label, or else is told by another whether it is a rank term. -/
theorem ensureSlot_permute (g : Arena) (hl : g.contains label = true ∨ π label = label) :
    (g.permute π).ensureSlot (π label) =
      ((g.ensureSlot label).1.permute π, (g.ensureSlot label).2) := by
  unfold ensureSlot
  rw [index_permute]
  cases hi : g.index label with
  | some slot => rfl
  | none =>
    have hfix : π label = label := by
      refine hl.resolve_left fun hc => ?_
      rw [contains, hi] at hc
      cases hc
    have hterm : Term.ofLabel (π label) =
        (Term.ofLabel label).permute π := by
      rw [hfix]
      show _ = Term.mk (π label) _ _
      rw [hfix]
      rfl
    rw [hterm]
    exact Prod.ext (addTerm_permute π g _) rfl

theorem putLink_permute (π : Equiv.Perm String) (g : Arena) (k : Link) :
    (g.permute π).putLink k = (g.putLink k).permute π := by
  unfold putLink
  rw [apply_ite (Arena.permute π)]
  rfl

theorem foldl_putLink_permute (π : Equiv.Perm String) (ks : List Link) (g : Arena) :
    ks.foldl putLink (g.permute π) = (ks.foldl putLink g).permute π := by
  induction ks generalizing g with
  | nil => rfl
  | cons k ks ih => rw [List.foldl_cons, putLink_permute, ih, List.foldl_cons]

/-- **Relating permuted terms.** -/
theorem relate_permute (π : Equiv.Perm String) (g : Arena) (a : Arc)
    (hp : g.contains a.parent = true ∨ π a.parent = a.parent)
    (hc : g.contains a.child = true ∨ π a.child = a.child) :
    (g.permute π).relate ⟨π a.parent, π a.child, a.relation⟩ = (g.relate a).permute π := by
  have hchild : (g.ensureSlot a.parent).1.contains a.child = true ∨ π a.child = a.child :=
    hc.imp_left fun hc => (contains_ensure g a.parent a.child).2 (Or.inr hc)
  unfold relate
  rw [ensureSlot_permute g hp]
  simp only
  rw [ensureSlot_permute _ hchild]
  exact putLink_permute π _ _

/-! ## Renaming -/

theorem rename_permute (π : Equiv.Perm String) (g : Arena) (slot : Nat) (old new : String) :
    (g.permute π).rename slot (π old) (π new) = (g.rename slot old new).permute π := by
  have hterms : (g.permute π).terms.update slot (fun t => { t with label := π new }) =
      (g.terms.update slot fun t => { t with label := new }).map fun _ t => t.permute π :=
    g.terms.update_map (Term.permute π) slot fun _ => rfl
  refine Arena.ext hterms rfl (funext fun label => ?_)
  show (if label = π new then _ else if label = π old then _ else _) =
    if π.symm label = new then _ else if π.symm label = old then _ else _
  simp only [π.symm_apply_eq]
  rfl

theorem forget_permute (π : Equiv.Perm String) (g : Arena) (label : String) :
    (g.permute π).forget (π label) = (g.forget label).permute π := by
  refine Arena.ext rfl rfl (funext fun l => ?_)
  show (if l = π label then _ else _) = if π.symm l = label then _ else _
  simp only [π.symm_apply_eq]
  rfl

theorem vacate_permute (π : Equiv.Perm String) (g : Arena) (slot : Nat) :
    (g.permute π).vacate slot = (g.vacate slot).permute π :=
  Arena.ext (g.terms.erase_map (Term.permute π) slot) rfl rfl

theorem moveTerm_permute (π : Equiv.Perm String) (g : Arena) (old new : Nat) (label : String) :
    (g.permute π).moveTerm old new (π label) = (g.moveTerm old new label).permute π := by
  have hterm : (g.permute π).terms.get? old =
      (g.terms.get? old).map (Term.permute π) := Slots.get?_map _ _ _
  unfold moveTerm
  rw [hterm]
  cases g.terms.get? old with
  | none => rfl
  | some t =>
    simp only [Option.map_some, vacate_permute]
    have hterms : ((g.vacate old).permute π).terms.update new
        (fun _ => { t with label := label }.permute π) =
        ((g.vacate old).terms.update new fun _ => { t with label := label }).map fun _ t =>
          t.permute π :=
      (g.vacate old).terms.update_map (Term.permute π) new fun _ => rfl
    exact Arena.ext hterms rfl rfl

theorem mergeInto_permute (π : Equiv.Perm String) (g : Arena) (source target : Nat)
    (old new : String) : (g.permute π).mergeInto source target (π old) (π new) =
      (g.mergeInto source target old new).permute π := by
  unfold mergeInto
  rw [forget_permute, moveTerm_permute]
  exact foldl_putLink_permute π _ _

/-- **Renaming a permuted term.** -/
theorem relabel?_permute (π : Equiv.Perm String) (g : Arena) (old new : String) :
    (g.permute π).relabel? (π old) (π new) = (g.relabel? old new).map (Arena.permute π) := by
  unfold relabel?
  simp only [π.injective.eq_iff, contains_permute, index_permute]
  split
  · split <;> rfl
  · cases g.index old with
    | none => rfl
    | some source =>
      cases g.index new with
      | none => exact congrArg some (rename_permute π g source old new)
      | some target => exact congrArg some (mergeInto_permute π g source target old new)

/-! ## Union -/

/-- The terms of a permuted arena are taken over under their new labels, into the same slots. -/
theorem foldl_takeTerm_permute (π : Equiv.Perm String) (es : List (Nat × Term))
    (s : Arena × Lookup Nat Nat) :
    (es.map fun e => (e.1, e.2.permute π)).foldl takeTerm (s.1.permute π, s.2) =
      ((es.foldl takeTerm s).1.permute π, (es.foldl takeTerm s).2) := by
  induction es generalizing s with
  | nil => rfl
  | cons e es ih =>
    have hterm : takeTerm (s.1.permute π, s.2) (e.1, e.2.permute π) =
        ((takeTerm s e).1.permute π, (takeTerm s e).2) := by
      simp only [takeTerm, putTerm_permute]
    rw [List.map_cons, List.foldl_cons, List.foldl_cons, hterm, ih]

theorem foldl_takeLink_permute (π : Equiv.Perm String) (taken : Lookup Nat Nat) (ks : List Link)
    (g : Arena) :
    ks.foldl (takeLink taken) (g.permute π) = (ks.foldl (takeLink taken) g).permute π := by
  rw [foldl_takeLink_eq, foldl_putLink_permute, ← foldl_takeLink_eq]

/-- **Uniting permuted arenas.** -/
theorem compose_permute (π : Equiv.Perm String) (g other : Arena) :
    (g.permute π).compose (other.permute π) = (g.compose other).permute π := by
  have hentries : (other.permute π).terms.entries =
      other.terms.entries.map fun e => (e.1, e.2.permute π) :=
    Slots.entries_map other.terms (Term.permute π)
  unfold compose
  rw [hentries, foldl_takeTerm_permute π _ (g, Lookup.empty)]
  exact foldl_takeLink_permute π _ _ _

end Arena

namespace TermGraph

variable {g other : TermGraph} {π : Equiv.Perm String} {old new : String}

/-- The graph whose labels are permuted. -/
def permute (π : Equiv.Perm String) (g : TermGraph) : TermGraph :=
  ⟨g.toArena.permute π, g.valid.permute π⟩

/-- A rename to a label that is not taken exchanges the two labels. -/
theorem relabel?_eq_permute (ho : g.contains old = true) (hn : g.contains new = false) :
    g.relabel? old new = some (g.permute (Equiv.swap old new)) :=
  relabel?_eq_some.2 (g.valid.relabel?_eq_permute ho hn)

theorem contains_permute_of_eq {label : String} (hl : π label = label) :
    (g.permute π).contains label = g.contains label := by
  have hc := g.toArena.contains_permute π label
  rwa [hl] at hc

/-- Renaming a permuted term. -/
theorem relabel?_permute (π : Equiv.Perm String) (g : TermGraph) (old new : String) :
    (g.permute π).relabel? (π old) (π new) = (g.relabel? old new).map (permute π) := by
  have hr := g.toArena.relabel?_permute π old new
  refine Option.ext fun h => ?_
  rw [relabel?_eq_some, Option.map_eq_some_iff]
  refine (Eq.congr_left hr).trans (Option.map_eq_some_iff.trans ?_)
  constructor
  · rintro ⟨a, ha, hh⟩
    have hga := g.valid.relabel? ha
    exact ⟨⟨a, hga⟩, relabel?_eq_some.2 ha, toArena_inj hh⟩
  · rintro ⟨a, ha, rfl⟩
    exact ⟨a.toArena, relabel?_eq_some.1 ha, rfl⟩

/-- A rename of a term that a permutation keeps to one that is not taken, in either order. -/
theorem permute_comm (ho : g.contains old = true) (hn : g.contains new = false)
    (hπo : π old = old) (hπn : π new = new) :
    (g.permute π).permute (Equiv.swap old new) = (g.permute (Equiv.swap old new)).permute π := by
  have hr := g.relabel?_permute π old new
  rw [hπo, hπn, relabel?_eq_permute ho hn] at hr
  rw [relabel?_eq_permute ((contains_permute_of_eq hπo).trans ho)
    ((contains_permute_of_eq hπn).trans hn)] at hr
  exact Option.some.inj hr

/-- Uniting a permuted graph with one that has none of the labels. -/
theorem compose_permute (g : TermGraph)
    (hπ : ∀ label, other.contains label = true → π label = label) :
    (g.permute π).compose other = (g.compose other).permute π := by
  refine toArena_inj (Eq.trans ?_ (g.toArena.compose_permute π other.toArena))
  rw [other.valid.permute_eq_self hπ]
  rfl

/-- Relating permuted terms. -/
theorem relate_permute (π : Equiv.Perm String) (g : TermGraph) (a : Arc)
    (hp : g.contains a.parent = true ∨ π a.parent = a.parent)
    (hc : g.contains a.child = true ∨ π a.child = a.child) :
    (g.permute π).relate ⟨π a.parent, π a.child, a.relation⟩ = (g.relate a).permute π :=
  toArena_inj (g.toArena.relate_permute π a hp hc)

end TermGraph

end Ontogram
